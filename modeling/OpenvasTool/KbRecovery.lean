import OpenvasTool.KbAnswers

/-!
# Requests when nothing breaks

From a state in which the daemon reads its queue, as long as no connection breaks: no message is
lost, repeated or overtaken, every call that begins then pushes its message once and returns the
result of its own request, or finds none in its time; and the daemon can always go on until a given
request is answered.
-/

namespace OpenvasTool

open Posix Support RedisServer

/-- Nothing breaks in a round. -/
def Attempt.Sound (a : Attempt) : Prop := a.connect = true ∧ a.exchange = .ok

/-- The round of this name that meets no trouble. -/
def soundAttempt : Attempt := ⟨true, .ok⟩

theorem sound_soundAttempt : soundAttempt.Sound := ⟨rfl, rfl⟩

namespace KbRedis

variable {ρ : Type*} [RedisServer ρ] {kb : KbRedis} {server : ρ} {cmd : RedisCmd} {a : Attempt}

theorem redisCmd_sound (ha : a.Sound) :
    kb.redisCmd server cmd a = ((execute server cmd).1, ⟨true, false⟩,
      some (some (execute server cmd).2)) := by
  obtain ⟨hconnect, hok⟩ := ha
  simp [redisCmd, getRedisCtx, hconnect, hok, Exchange.executed]

theorem executes_sound (ha : a.Sound) : kb.executes a = true := by
  obtain ⟨hconnect, hok⟩ := ha
  simp [executes, getRedisCtx, hconnect, hok, Exchange.executed]

end KbRedis

/-- Whatever goes on in between, the service can handle a request then. -/
def Service.Ready {ω η : Type*} (svc : Service ω η) : Prop :=
  ∀ (w : ω) (command : PhpCommand) (param : Text), ∃ (es : List η) (e : η),
    (svc.handle (es.foldl svc.background w) e command param).isSome

namespace KbSystem

variable {ρ ι ω η : Type*} [RedisServer ρ] [DecidableEq ι] {svc : Service ω η} {q : ι → KbRequest}
  {s s₀ : KbSystem ρ ι ω}

/-- No connection breaks in a step. -/
def SoundEvent : KbEvent ι η → Prop
  | .client _ a => a.Sound
  | .daemon a _ _ => a.Sound
  | _ => True

/-- The daemon has cleared its queue and had no error since its last successful poll. -/
structure Calm (s : KbSystem ρ ι ω) : Prop where
  phase : s.phase ≠ .clear
  gId : s.loop.gId = 0

/-- What was sent since a state came through: nothing is missing, and the order is the same. -/
def Exact (s₀ s : KbSystem ρ ι ω) : Prop :=
  ∃ new, s.mail.sent = s₀.mail.sent ++ new ∧
    s.mail.taken ++ s.mail.waiting = s₀.mail.taken ++ s₀.mail.waiting ++ new

omit [DecidableEq ι] in
/-- What a poll finds is the oldest waiting message. -/
theorem found_sound (h : Delivers q s) :
    redisPopStr maxCacheSize (some (execute s.server (.rpop openvasMsgName)).2) =
      match s.mail.waiting with
      | [] => .empty
      | m :: _ => .message m := by
  rw [← h.queue]
  cases hlist : elems s.server openvasMsgName with
  | nil => simp [reply_rpop, hlist, redisPopStr]
  | cons m elems =>
    have hwaiting : m ∈ s.mail.waiting := by
      rw [← h.queue, hlist]
      exact List.mem_cons_self
    obtain ⟨k, rfl⟩ := h.sent m (Delivery.mem_sent_of_mem_waiting hwaiting)
    rw [reply_rpop, hlist]
    exact (q k).popped_msg

omit [DecidableEq ι] in
/-- A poll of an empty queue. -/
theorem recvKbMsg_empty (h : Delivers q s) (hempty : s.mail.waiting = []) {a : Attempt}
    (ha : a.Sound) (hasMore : ℤ) (isRun : Bool) :
    s.recvKbMsg a hasMore isRun =
      { s with
        server := (execute s.server (.rpop openvasMsgName)).1
        kb := ⟨true, false⟩
        phase := .poll
        loop := s.loop.loopTurn ⟨.empty, hasMore, isRun⟩
        mail := s.mail.lose } := by
  have hfound := found_sound h
  rw [hempty] at hfound
  simp [recvKbMsg, KbRedis.redisCmd_sound ha, KbRedis.executes_sound ha, hfound,
    LoopPhase.afterPoll, LoopPhase.hand]

omit [DecidableEq ι] in
/-- A poll that finds a message. -/
theorem recvKbMsg_message (h : Delivers q s) (hgId : s.loop.gId = 0) {m : Text} {rest : List Text}
    (hcons : s.mail.waiting = m :: rest) {a : Attempt} (ha : a.Sound) (hasMore : ℤ)
    (isRun : Bool) :
    s.recvKbMsg a hasMore isRun =
      { s with
        server := (execute s.server (.rpop openvasMsgName)).1
        kb := ⟨true, false⟩
        phase := .process m
        loop := s.loop.loopTurn ⟨.message m, hasMore, isRun⟩
        mail := s.mail.take } := by
  have hfound := found_sound h
  rw [hcons] at hfound
  have hnext : LoopPhase.afterPoll s.loop.gId (.message m) = .process m := by
    rw [LoopPhase.afterPoll, hgId]
    rfl
  simp [recvKbMsg, KbRedis.redisCmd_sound ha, KbRedis.executes_sound ha, hfound, hnext,
    LoopPhase.hand]

theorem gId_endTurn (loop : LoopState) (turn : LoopTurn) : (loop.endTurn turn).gId = loop.gId := by
  unfold LoopState.endTurn
  dsimp only
  split <;> rfl

/-- Only an error moves the back-off index away from zero. -/
theorem gId_loopTurn {loop : LoopState} (hgId : loop.gId = 0) {turn : LoopTurn}
    (hfound : turn.found ≠ .connError) : (loop.loopTurn turn).gId = 0 := by
  unfold LoopState.loopTurn
  split
  · split
    · cases hturn : turn.found with
      | empty => simp [gId_endTurn, LoopState.act]
      | message inbuf => simp [hgId, gId_endTurn, LoopState.act]
      | connError => exact absurd hturn hfound
    · simp [hgId, gId_endTurn, LoopState.act]
  · exact hgId

namespace Calm

omit [DecidableEq ι] in
theorem daemon (h : Calm s) (hdelivers : Delivers q s) {a : Attempt} (ha : a.Sound) (hasMore : ℤ)
    (isRun : Bool) : Calm (s.daemon a hasMore isRun) := by
  unfold KbSystem.daemon
  cases hphase : s.phase with
  | clear => exact absurd hphase h.phase
  | poll =>
    dsimp only
    split
    · cases hwaiting : s.mail.waiting with
      | nil =>
        rw [recvKbMsg_empty hdelivers hwaiting ha]
        exact ⟨by simp, gId_loopTurn h.gId (by simp)⟩
      | cons m rest =>
        rw [recvKbMsg_message hdelivers h.gId hwaiting ha]
        exact ⟨by simp, gId_loopTurn h.gId (by simp)⟩
    · exact ⟨by simp, gId_loopTurn h.gId (by simp)⟩
  | process inbuf => exact h
  | reply uuid ret =>
    refine ⟨?_, h.gId⟩
    simp only [KbRedis.redisCmd_sound ha]
    split <;> simp
  | expire uuid =>
    refine ⟨?_, h.gId⟩
    simp [KbRedis.redisCmd_sound ha]

omit [RedisServer ρ] [DecidableEq ι] in
theorem handler (h : Calm s) (e : η) : Calm (s.handler svc e) := by
  unfold KbSystem.handler
  have hprocessed : ∀ inbuf w code, Calm (s.processed inbuf w code) := by
    intro inbuf w code
    refine ⟨?_, h.gId⟩
    unfold processed
    dsimp only
    split <;> simp
  split
  · split
    · exact hprocessed ..
    · split
      · exact h
      · exact hprocessed ..
  · exact h

theorem step (h : Calm s) (hdelivers : Delivers q s) {event : KbEvent ι η}
    (hsound : SoundEvent event) : Calm (s.step svc q event) := by
  cases event with
  | client k a => exact ⟨h.phase, h.gId⟩
  | daemon a hasMore isRun => exact h.daemon hdelivers hsound hasMore isRun
  | handler e => exact h.handler e
  | background e => exact ⟨h.phase, h.gId⟩
  | expired name => exact ⟨h.phase, h.gId⟩

end Calm

/-! ### Nothing is lost -/

namespace Exact

omit [RedisServer ρ] [DecidableEq ι] in
theorem refl (s : KbSystem ρ ι ω) : Exact s s := ⟨[], by simp, by simp⟩

omit [DecidableEq ι] in
/-- A message that is handed out stays in its place. -/
theorem daemon (h : Exact s₀ s) (hcalm : Calm s) (hdelivers : Delivers q s) {a : Attempt}
    (ha : a.Sound) (hasMore : ℤ) (isRun : Bool) : Exact s₀ (s.daemon a hasMore isRun) := by
  obtain ⟨new, hsent, hrest⟩ := h
  unfold KbSystem.daemon
  cases hphase : s.phase with
  | clear => exact absurd hphase hcalm.phase
  | poll =>
    dsimp only
    split
    · cases hwaiting : s.mail.waiting with
      | nil =>
        rw [recvKbMsg_empty hdelivers hwaiting ha]
        refine ⟨new, hsent, ?_⟩
        simpa [hwaiting] using hrest
      | cons m rest =>
        rw [recvKbMsg_message hdelivers hcalm.gId hwaiting ha]
        refine ⟨new, hsent, ?_⟩
        simpa [Delivery.take, hwaiting] using hrest
    · exact ⟨new, hsent, hrest⟩
  | process inbuf => exact ⟨new, hsent, hrest⟩
  | reply uuid ret => exact ⟨new, hsent, hrest⟩
  | expire uuid => exact ⟨new, hsent, hrest⟩

theorem step (h : Exact s₀ s) (hcalm : Calm s) (hdelivers : Delivers q s) {event : KbEvent ι η}
    (hsound : SoundEvent event) : Exact s₀ (s.step svc q event) := by
  cases event with
  | client k a =>
    obtain ⟨new, hsent, hrest⟩ := h
    simp only [KbSystem.step, client]
    split
    · refine ⟨new ++ [(q k).msg], ?_, ?_⟩
      · simp [hsent]
      · rw [Delivery.taken_send, Delivery.waiting_send, ← List.append_assoc, hrest]
        simp
    · exact ⟨new, hsent, hrest⟩
  | daemon a hasMore isRun => exact h.daemon hcalm hdelivers hsound hasMore isRun
  | handler e =>
    obtain ⟨hmail, -⟩ := sent_handler svc s e
    obtain ⟨new, hsent, hrest⟩ := h
    rw [KbSystem.step]
    exact ⟨new, hmail ▸ hsent, hmail ▸ hrest⟩
  | background e => exact h
  | expired name => exact h

end Exact

/-! ### Calls that begin then -/

/-- How often a call pushed its message, and what it returns, by its phase. -/
def Tracks (q : ι → KbRequest) (k : ι) (s : KbSystem ρ ι ω) : Prop :=
  match (s.calls k).phase with
  | .connect => s.mail.sent.count (q k).msg = 0
  | .push => s.mail.sent.count (q k).msg = 0
  | .wait => s.mail.sent.count (q k).msg = 1
  | .done ret => s.mail.sent.count (q k).msg = 1 ∧
      (ret = GvmErrCode.waitTimeout.toInt ∨ s.AnswerOf q (q k).name ret)

omit [RedisServer ρ] [DecidableEq ι] in
theorem answered_handler (e : η) : s.answered ⊆ (s.handler svc e).answered := by
  unfold handler
  split
  · split
    · exact List.subset_append_left ..
    · split
      · exact List.Subset.refl _
      · exact List.subset_append_left ..
  · exact List.Subset.refl _

namespace Tracks

variable {k : ι}

omit [RedisServer ρ] [DecidableEq ι] in
/-- The phase depends on the call, the pushed messages and the answers. -/
theorem mono {s' : KbSystem ρ ι ω} (h : Tracks q k s) (hcalls : s'.calls k = s.calls k)
    (hsent : s'.mail.sent.count (q k).msg = s.mail.sent.count (q k).msg)
    (hanswered : s.answered ⊆ s'.answered) : Tracks q k s' := by
  unfold Tracks at h ⊢
  rw [hcalls, hsent]
  cases hphase : (s.calls k).phase with
  | done ret =>
    rw [hphase] at h
    refine ⟨h.1, h.2.imp_right ?_⟩
    rintro ⟨j, code, hname, hmem, hret⟩
    exact ⟨j, code, hname, hanswered hmem, hret⟩
  | _ => simpa [hphase] using h

/-- A round of the call itself. -/
theorem client (h : Tracks q k s) (hdelivers : Delivers q s) {a : Attempt} (ha : a.Sound) :
    Tracks q k (s.client q k a) := by
  unfold Tracks at h ⊢
  simp only [KbSystem.client, Function.update_self]
  cases hphase : (s.calls k).phase with
  | connect =>
    rw [hphase] at h
    simpa [sendKbMsg, hphase, ha.1] using h
  | push =>
    rw [hphase] at h
    simpa [sendKbMsg, hphase, KbRedis.redisCmd_sound ha, KbRedis.executes_sound ha,
      redisPushed] using h
  | wait =>
    rw [hphase] at h
    simp only [sendKbMsg, hphase, KbRedis.redisCmd_sound ha]
    refine ⟨by simpa using h, ?_⟩
    cases hlist : elems s.server (q k).name with
    | nil =>
      left
      rw [reply_brpop, hlist]
      rfl
    | cons value elems =>
      right
      obtain ⟨ret, rfl, j, code, hname, hmem, rfl⟩ :=
        hdelivers.stored _ (q k).name_ne value (hlist ▸ List.mem_cons_self)
      refine ⟨j, code, hname, hmem, ?_⟩
      rw [reply_brpop, hlist]
      simp only [List.head?_cons, Option.elim_some, sendResult, redisBpopInt_decimal]
  | done ret =>
    rw [hphase] at h
    simpa [sendKbMsg, hphase] using h

theorem step (h : Tracks q k s) (hinj : Function.Injective fun k => (q k).name)
    (hdelivers : Delivers q s) {event : KbEvent ι η} (hsound : SoundEvent event) :
    Tracks q k (s.step svc q event) := by
  cases event with
  | client j a =>
    by_cases hj : k = j
    · subst hj
      exact h.client hdelivers hsound
    · have hmsg : (q j).msg ≠ (q k).msg := fun heq =>
        hj (hinj (KbRequest.name_eq_of_msg_eq heq)).symm
      refine h.mono ?_ ?_ (List.Subset.refl _)
      · simp [KbSystem.step, KbSystem.client, hj]
      · simp only [KbSystem.step, KbSystem.client]
        split
        · simp [List.count_append, hmsg]
        · rfl
  | daemon a hasMore isRun =>
    obtain ⟨hsent, hcalls⟩ := sent_daemon (s := s) a hasMore isRun
    obtain ⟨hanswered, -⟩ := daemon_frame (s := s) a hasMore isRun
    refine h.mono ?_ ?_ ?_
    · rw [KbSystem.step, hcalls]
    · rw [KbSystem.step, hsent]
    · rw [KbSystem.step, hanswered]
      exact List.Subset.refl _
  | handler e =>
    obtain ⟨hmail, hcalls⟩ := sent_handler svc s e
    refine h.mono ?_ ?_ ?_
    · rw [KbSystem.step, hcalls]
    · rw [KbSystem.step, hmail]
    · exact answered_handler e
  | background e => exact h.mono rfl rfl (List.Subset.refl _)
  | expired name => exact h.mono rfl rfl (List.Subset.refl _)

end Tracks

variable (ρ) in
/-- From a state in which the daemon reads its queue and has not met an error since its last poll,
by steps in which nothing breaks: what is handed out and what waits is what was, followed by the new
messages, none lost and in the order in which they were pushed. Every call that begins then pushes
its message exactly once and returns the result of its own request, or none came in its time. -/
theorem runs_sound (hinj : Function.Injective fun k => (q k).name) (svc : Service ω η) (w : ω)
    (before events : List (KbEvent ι η)) (hcalm : Calm ((init ρ w).runs svc q before))
    (hsound : ∀ event ∈ events, SoundEvent event) :
    Exact ((init ρ w).runs svc q before) ((init ρ w).runs svc q (before ++ events)) ∧
      ∀ k, (((init ρ w).runs svc q before).calls k).phase = .connect →
        Tracks q k ((init ρ w).runs svc q (before ++ events)) := by
  have hdelivers : Delivers q ((init ρ w).runs svc q before) :=
    delivers_runs (delivers_init w) before
  have hbudget : ∀ k, Budget q 1 k ((init ρ w).runs svc q before) := fun k =>
    budget_runs ρ hinj svc w fun _ _ _ => le_rfl
  have hsplit : (init ρ w).runs svc q (before ++ events) =
      ((init ρ w).runs svc q before).runs svc q events := runs_append before events
  rw [hsplit]
  generalize (init ρ w).runs svc q before = s₀ at *
  -- the run keeps all of it
  let Inv : KbSystem ρ ι ω → Prop := fun s => Delivers q s ∧ Calm s ∧ Exact s₀ s ∧
    ∀ k, (s₀.calls k).phase = .connect → Tracks q k s
  have hrun : Inv (s₀.runs svc q events) := by
    have hstep : ∀ s event, SoundEvent event → Inv s → Inv (s.step svc q event) :=
      fun s event hevent ⟨hd, hc, he, ht⟩ => ⟨hd.step event, hc.step hd hevent,
        he.step hc hd hevent, fun k hk => (ht k hk).step hinj hd hevent⟩
    have halong : Along (step svc q) (fun _ event => SoundEvent event) s₀ events := by
      clear hsplit
      generalize s₀ = s
      induction events generalizing s with
      | nil => trivial
      | cons event events ih =>
        exact ⟨hsound event List.mem_cons_self,
          ih (fun e he => hsound e (List.mem_cons_of_mem event he)) _⟩
    refine halong.invariant hstep ⟨hdelivers, hcalm, .refl s₀, fun k hk => ?_⟩
    have hnone := hbudget k
    rw [Budget, pushes, hk] at hnone
    rw [Tracks, hk]
    exact Nat.le_zero.mp hnone
  exact ⟨hrun.2.2.1, hrun.2.2.2⟩

/-- A call sends its request and fetches the result. -/
theorem runs_sound_sample :
    let s := (init Redis 0).runs countingService sampleRequests ([.daemon soundAttempt 0 true] ++
      [.client true soundAttempt, .client true soundAttempt, .daemon soundAttempt 0 true,
        .handler (), .daemon soundAttempt 0 true, .client true soundAttempt])
    Tracks sampleRequests true s ∧ (s.calls true).phase = .done 0 := by
  intro s
  have h := runs_sound Redis sampleRequests_injective countingService 0
    [.daemon soundAttempt 0 true]
    [.client true soundAttempt, .client true soundAttempt, .daemon soundAttempt 0 true,
      .handler (), .daemon soundAttempt 0 true, .client true soundAttempt]
    ⟨by decide +kernel, by decide +kernel⟩ (by simp [SoundEvent, sound_soundAttempt])
  exact ⟨h.2 true (by decide +kernel), by decide +kernel⟩

/-! ### The daemon goes on -/

/-- A step of the daemon alone in which nothing breaks. -/
def DaemonEvent : KbEvent ι η → Prop
  | .client _ _ => False
  | event => SoundEvent event

/-- The daemon alone gets there without any trouble. -/
def Continues (svc : Service ω η) (q : ι → KbRequest) (s s' : KbSystem ρ ι ω) : Prop :=
  ∃ events : List (KbEvent ι η), (∀ event ∈ events, DaemonEvent event) ∧ s.runs svc q events = s'

namespace Continues

theorem refl (s : KbSystem ρ ι ω) : Continues svc q s s := ⟨[], by simp, rfl⟩

theorem step (s : KbSystem ρ ι ω) {event : KbEvent ι η} (h : DaemonEvent event) :
    Continues svc q s (s.step svc q event) := ⟨[event], by simpa using h, rfl⟩

theorem trans {s₁ s₂ s₃ : KbSystem ρ ι ω} (h : Continues svc q s₁ s₂) (h' : Continues svc q s₂ s₃) :
    Continues svc q s₁ s₃ := by
  obtain ⟨events, hevents, rfl⟩ := h
  obtain ⟨events', hevents', rfl⟩ := h'
  refine ⟨events ++ events', ?_, runs_append events events'⟩
  intro event hevent
  rcases List.mem_append.mp hevent with hevent | hevent
  · exact hevents event hevent
  · exact hevents' event hevent

end Continues

omit [DecidableEq ι] in
theorem daemonEvent_round : DaemonEvent (.daemon soundAttempt 0 true : KbEvent ι η) := ⟨rfl, rfl⟩

/-- The queue, the loop and the calls are the same. -/
structure SameMail (s s' : KbSystem ρ ι ω) : Prop where
  mail : s'.mail = s.mail
  loop : s'.loop = s.loop
  calls : s'.calls = s.calls

omit [RedisServer ρ] [DecidableEq ι] in
theorem SameMail.trans {s₁ s₂ s₃ : KbSystem ρ ι ω} (h : SameMail s₁ s₂) (h' : SameMail s₂ s₃) :
    SameMail s₁ s₃ :=
  ⟨h'.mail.trans h.mail, h'.loop.trans h.loop, h'.calls.trans h.calls⟩

/-- The work in between changes the state that is served only. -/
theorem runs_background (s : KbSystem ρ ι ω) (es : List η) :
    s.runs svc q (es.map .background) = { s with world := es.foldl svc.background s.world } := by
  induction es generalizing s with
  | nil => rfl
  | cons e es ih => exact ih { s with world := svc.background s.world e }

/-- The message in hand is processed. -/
theorem continues_process (hready : svc.Ready) (h : Delivers q s) {inbuf : Text}
    (hphase : s.phase = .process inbuf) :
    ∃ s' k code, Continues svc q s s' ∧ inbuf = (q k).msg ∧
      s'.phase = .reply (q k).name code ∧ SameMail s s' := by
  obtain ⟨k, rfl⟩ := h.hand_eq hphase
  obtain ⟨es, e, hsome⟩ := hready s.world (q k).command (kbMessage (q k).param.fields)
  obtain ⟨⟨w, code⟩, hcall⟩ := Option.isSome_iff_exists.mp hsome
  refine ⟨_, k, code.toInt, ⟨es.map .background ++ [.handler e], ?_, rfl⟩, rfl, ?_⟩
  · intro event hevent
    rcases List.mem_append.mp hevent with hevent | hevent
    · obtain ⟨e', -, rfl⟩ := List.mem_map.mp hevent
      trivial
    · obtain rfl := List.mem_singleton.mp hevent
      trivial
  · have hrun : s.runs svc q (es.map .background ++ [.handler e]) =
        { s with
          world := w
          answered := s.answered ++ [((q k).msg, code)]
          phase := .reply (q k).name code.toInt } := by
      rw [runs_append, runs_background, runs, run_cons, run_nil]
      simp [KbSystem.step, handler, hphase, (q k).handlerCall_msg, hcall, processed,
        (q k).processMsg_msg, (q k).name_eq]
    rw [hrun]
    exact ⟨rfl, rfl, rfl, rfl⟩

/-- The answer is pushed. -/
theorem continues_reply (svc : Service ω η) (q : ι → KbRequest) {uuid : Text} {ret : ℤ}
    (hphase : s.phase = .reply uuid ret) :
    ∃ s', Continues svc q s s' ∧ s'.phase = .expire uuid ∧ elems s'.server uuid ≠ [] ∧
      SameMail s s' := by
  refine ⟨_, .step s daemonEvent_round, ?_⟩
  have hstep : s.step svc q (.daemon soundAttempt 0 true) =
      { s with
        server := (execute s.server (.lpush uuid (decimal ret))).1
        kb := ⟨true, false⟩
        phase := .expire uuid } := by
    simp [KbSystem.step, daemon, hphase, KbRedis.redisCmd_sound sound_soundAttempt, redisPushed]
  rw [hstep]
  exact ⟨rfl, by simp, rfl, rfl, rfl⟩

/-- The answer gets its time to live. -/
theorem continues_expire (svc : Service ω η) (q : ι → KbRequest) {uuid : Text}
    (hphase : s.phase = .expire uuid) :
    ∃ s', Continues svc q s s' ∧ s'.phase = .poll ∧
      (∀ name, elems s'.server name = elems s.server name) ∧ SameMail s s' := by
  refine ⟨_, .step s daemonEvent_round, ?_⟩
  have hstep : s.step svc q (.daemon soundAttempt 0 true) =
      { s with
        server := (execute s.server (.expire uuid)).1
        kb := ⟨true, false⟩
        phase := .poll } := by
    simp [KbSystem.step, daemon, hphase, KbRedis.redisCmd_sound sound_soundAttempt]
  rw [hstep]
  exact ⟨rfl, fun name => elems_execute_expire s.server uuid name, rfl, rfl, rfl⟩

/-- The daemon polls next. -/
structure Polls (s : KbSystem ρ ι ω) : Prop where
  phase : s.phase = .poll
  isRun : s.loop.isRun = true
  timeout : s.loop.timeout ≤ 0
  gId : s.loop.gId = 0

theorem endTurn_true (loop : LoopState) (turn : LoopTurn) (hturn : turn.isRun = true) :
    loop.endTurn turn = ({ loop with isRun := true }.act .doEveryLoop) := by
  simp [LoopState.endTurn, hturn]

/-- The daemon serves the oldest waiting message, and its answer can be fetched. -/
theorem continues_poll (hready : svc.Ready) (h : Delivers q s) (hpolls : Polls s) {m : Text}
    {rest : List Text} (hcons : s.mail.waiting = m :: rest) :
    ∃ s' k, Continues svc q s s' ∧ Polls s' ∧ s'.mail.waiting = rest ∧ s'.calls = s.calls ∧
      m = (q k).msg ∧ elems s'.server (q k).name ≠ [] := by
  have hpop : s.step svc q (.daemon soundAttempt 0 true) =
      { s with
        server := (execute s.server (.rpop openvasMsgName)).1
        kb := ⟨true, false⟩
        phase := .process m
        loop := s.loop.loopTurn ⟨.message m, 0, true⟩
        mail := s.mail.take } := by
    rw [KbSystem.step, daemon, hpolls.phase]
    dsimp only
    rw [if_pos ⟨hpolls.isRun, hpolls.timeout⟩]
    exact recvKbMsg_message h hpolls.gId hcons ⟨rfl, rfl⟩ 0 true
  obtain ⟨s₁, hs₁⟩ : ∃ s₁, s.step svc q (.daemon soundAttempt 0 true) = s₁ := ⟨_, rfl⟩
  have hcont : Continues svc q s s₁ := hs₁ ▸ .step s daemonEvent_round
  have hdelivers₁ : Delivers q s₁ := hs₁ ▸ h.step _
  rw [hpop] at hs₁
  have hloop : s₁.loop.isRun = true ∧ s₁.loop.timeout ≤ 0 ∧ s₁.loop.gId = 0 := by
    rw [← hs₁]
    simp [LoopState.loopTurn, hpolls.isRun, hpolls.timeout, hpolls.gId, endTurn_true,
      LoopState.act]
  obtain ⟨s₂, k, code, hcont₂, hm, hphase₂, hsame₂⟩ :=
    continues_process hready hdelivers₁ (show s₁.phase = .process m by rw [← hs₁])
  obtain ⟨s₃, hcont₃, hphase₃, hlist₃, hsame₃⟩ := continues_reply svc q hphase₂
  obtain ⟨s₄, hcont₄, hphase₄, hlists₄, hsame₄⟩ := continues_expire svc q hphase₃
  have hloop₄ : s₄.loop = s₁.loop := by rw [hsame₄.loop, hsame₃.loop, hsame₂.loop]
  have hmail₄ : s₄.mail = s₁.mail := by rw [hsame₄.mail, hsame₃.mail, hsame₂.mail]
  have hcalls₄ : s₄.calls = s₁.calls := by rw [hsame₄.calls, hsame₃.calls, hsame₂.calls]
  refine ⟨s₄, k, ((hcont.trans hcont₂).trans hcont₃).trans hcont₄, ?_, ?_, ?_, hm, ?_⟩
  · exact ⟨hphase₄, hloop₄ ▸ hloop.1, hloop₄ ▸ hloop.2.1, hloop₄ ▸ hloop.2.2⟩
  · rw [hmail₄, ← hs₁, Delivery.waiting_take, hcons, List.tail_cons]
  · rw [hcalls₄, ← hs₁]
  · rwa [hlists₄]

/-- The daemon sleeps until its next poll. -/
theorem continues_sleep (svc : Service ω η) (q : ι → KbRequest) (n : ℕ)
    (hphase : s.phase = .poll) (hrun : s.loop.isRun = true)
    (hgId : s.loop.gId = 0) (htimeout : s.loop.timeout ≤ n) :
    ∃ s', Continues svc q s s' ∧ Polls s' ∧ s'.mail = s.mail ∧ s'.calls = s.calls := by
  induction n generalizing s with
  | zero => exact ⟨s, .refl s, ⟨hphase, hrun, by simpa using htimeout, hgId⟩, rfl, rfl⟩
  | succ n ih =>
    by_cases hpoll : s.loop.timeout ≤ 0
    · exact ⟨s, .refl s, ⟨hphase, hrun, hpoll, hgId⟩, rfl, rfl⟩
    have hstep : s.step svc q (.daemon soundAttempt 0 true) =
        { s with loop := s.loop.loopTurn ⟨.empty, 0, true⟩ } := by
      rw [KbSystem.step, daemon, hphase]
      dsimp only
      rw [if_neg fun h => hpoll h.2]
    have hloop : s.loop.loopTurn ⟨.empty, 0, true⟩ =
        ({ s.loop.act .sleep with timeout := s.loop.timeout - 1, isRun := true }.act
          .doEveryLoop) := by
      rw [LoopState.loopTurn, if_pos hrun, if_neg hpoll, endTurn_true _ _ rfl]
    have hsleep : (s.loop.loopTurn ⟨.empty, 0, true⟩).timeout ≤ n := by
      rw [hloop]
      simp only [LoopState.act]
      push_cast at htimeout
      omega
    obtain ⟨s', hcont, hpolls, hmail, hcalls⟩ :=
      ih (s := { s with loop := s.loop.loopTurn ⟨.empty, 0, true⟩ }) hphase (by rw [hloop]; rfl)
        (gId_loopTurn hgId (by simp)) hsleep
    refine ⟨s', Continues.trans (hstep ▸ .step s daemonEvent_round) hcont, hpolls, hmail, hcalls⟩

/-- The daemon finishes what it is at and gets to its next poll. -/
theorem continues_calm (hready : svc.Ready) (h : Delivers q s) (hcalm : Calm s)
    (hrun : s.loop.isRun = true) :
    ∃ s', Continues svc q s s' ∧ Polls s' ∧ s'.mail = s.mail ∧ s'.calls = s.calls := by
  have hpoll : ∀ s₁, s₁.phase = .poll → SameMail s s₁ →
      ∃ s', Continues svc q s₁ s' ∧ Polls s' ∧ s'.mail = s.mail ∧ s'.calls = s.calls := by
    intro s₁ hphase hsame
    obtain ⟨s', hcont, hpolls, hmail, hcalls⟩ :=
      continues_sleep svc q s₁.loop.timeout.toNat hphase (hsame.loop ▸ hrun)
        (hsame.loop ▸ hcalm.gId) (Int.self_le_toNat _)
    exact ⟨s', hcont, hpolls, hmail.trans hsame.mail, hcalls.trans hsame.calls⟩
  have hexpire : ∀ s₁ uuid, s₁.phase = .expire uuid → SameMail s s₁ →
      ∃ s', Continues svc q s₁ s' ∧ Polls s' ∧ s'.mail = s.mail ∧ s'.calls = s.calls := by
    intro s₁ uuid hphase hsame
    obtain ⟨s₂, hcont, hphase₂, -, hsame₂⟩ := continues_expire svc q hphase
    obtain ⟨s', hcont', hrest⟩ := hpoll s₂ hphase₂ (hsame.trans hsame₂)
    exact ⟨s', hcont.trans hcont', hrest⟩
  have hreply : ∀ s₁ uuid ret, s₁.phase = .reply uuid ret → SameMail s s₁ →
      ∃ s', Continues svc q s₁ s' ∧ Polls s' ∧ s'.mail = s.mail ∧ s'.calls = s.calls := by
    intro s₁ uuid ret hphase hsame
    obtain ⟨s₂, hcont, hphase₂, -, hsame₂⟩ := continues_reply svc q hphase
    obtain ⟨s', hcont', hrest⟩ := hexpire s₂ uuid hphase₂ (hsame.trans hsame₂)
    exact ⟨s', hcont.trans hcont', hrest⟩
  cases hphase : s.phase with
  | clear => exact absurd hphase hcalm.phase
  | poll => exact hpoll s hphase ⟨rfl, rfl, rfl⟩
  | process inbuf =>
    obtain ⟨s₂, k, code, hcont, -, hphase₂, hsame₂⟩ := continues_process hready h hphase
    obtain ⟨s', hcont', hrest⟩ := hreply s₂ _ _ hphase₂ hsame₂
    exact ⟨s', hcont.trans hcont', hrest⟩
  | reply uuid ret => exact hreply s uuid ret hphase ⟨rfl, rfl, rfl⟩
  | expire uuid => exact hexpire s uuid hphase ⟨rfl, rfl, rfl⟩

/-- The daemon serves the messages in front of one, and then this one. -/
theorem continues_serve (hready : svc.Ready) (h : Delivers q s) (hpolls : Polls s) {k : ι}
    {front rest : List Text} (hwaiting : s.mail.waiting = front ++ (q k).msg :: rest) :
    ∃ s', Continues svc q s s' ∧ s'.calls = s.calls ∧ elems s'.server (q k).name ≠ [] := by
  induction front generalizing s with
  | nil =>
    obtain ⟨s', j, hcont, -, -, hcalls, hmsg, hlist⟩ := continues_poll hready h hpolls hwaiting
    rw [← KbRequest.name_eq_of_msg_eq hmsg] at hlist
    exact ⟨s', hcont, hcalls, hlist⟩
  | cons m front ih =>
    obtain ⟨s₁, -, hcont, hpolls₁, hwaiting₁, hcalls, -, -⟩ :=
      continues_poll hready h hpolls hwaiting
    have h₁ : Delivers q s₁ := by
      obtain ⟨events, -, rfl⟩ := hcont
      exact delivers_runs h events
    obtain ⟨s', hcont', hcalls', hlist⟩ := ih h₁ hpolls₁ hwaiting₁
    exact ⟨s', hcont.trans hcont', hcalls'.trans hcalls, hlist⟩

/-- From every reachable state in which the daemon runs, reads its queue and has not met an error
since its last poll, and for every call that waits and whose message is in the queue: by rounds of
the daemon alone, in which nothing breaks, it comes to a state in which the next round of the call
returns the result of its own request. -/
theorem exists_answer (hinj : Function.Injective fun k => (q k).name) (hready : svc.Ready)
    (w : ω) (before : List (KbEvent ι η)) {s : KbSystem ρ ι ω}
    (hs : (init ρ w).runs svc q before = s)
    (hcalm : Calm s) (hrun : s.loop.isRun = true) {k : ι} (hwait : (s.calls k).phase = .wait)
    (hmem : (q k).msg ∈ s.mail.waiting) :
    ∃ s', Continues svc q s s' ∧ ∃ code, ((q k).msg, code) ∈ s'.answered ∧
      ((s'.client q k soundAttempt).calls k).phase = .done code.toInt := by
  have h : Delivers q s := hs ▸ delivers_runs (delivers_init w) before
  obtain ⟨s₁, hcont₁, hpolls, hmail, hcalls₁⟩ := continues_calm hready h hcalm hrun
  have h₁ : Delivers q s₁ := by
    obtain ⟨events, -, rfl⟩ := hcont₁
    exact delivers_runs h events
  obtain ⟨front, rest, hwaiting⟩ := List.append_of_mem hmem
  rw [← hmail] at hwaiting
  obtain ⟨s', hcont₂, hcalls₂, hlist⟩ := continues_serve hready h₁ hpolls hwaiting
  have h' : Delivers q s' := by
    obtain ⟨events, -, rfl⟩ := hcont₂
    exact delivers_runs h₁ events
  refine ⟨s', hcont₁.trans hcont₂, ?_⟩
  obtain ⟨value, elems, hcons⟩ := List.exists_cons_of_ne_nil hlist
  obtain ⟨ret, rfl, j, code, hname, hanswered, rfl⟩ :=
    h'.stored _ (q k).name_ne value (hcons ▸ List.mem_cons_self)
  obtain rfl := hinj hname
  refine ⟨code, hanswered, ?_⟩
  have hphase : (s'.calls k).phase = .wait := by rw [hcalls₂, hcalls₁, hwait]
  simp [client, sendKbMsg, hphase, KbRedis.redisCmd_sound sound_soundAttempt, reply_brpop, hcons,
    sendResult, redisBpopInt_decimal]

end KbSystem

end OpenvasTool
