import OpenvasTool.KbProtocol

/-!
# Runs of the requests over redis

What holds of the server, the queue and the answers in every state of every interleaving: the
queue hands out what the clients pushed in its order, every list of another name holds answers to
the requests with that id, and what a client returns is one of these or its own error.
-/

namespace OpenvasTool

open Posix Support RedisServer

/-! ### Messages of clients -/

namespace KbRequest

/-- No id is the name of the queue. -/
theorem name_ne (q : KbRequest) : q.name ≠ openvasMsgName := by
  intro h
  have hlen : q.name.length = 36 := by
    rw [q.name_eq]
    exact UuidSource.length_render q.uuid
  rw [h] at hlen
  exact absurd hlen (by decide)

theorem handlerCall_msg (q : KbRequest) :
    handlerCall q.msg = some (q.command, kbMessage q.param.fields) := by
  obtain ⟨cmd, hcmd, htokens⟩ := processMsgTokens_phpMessage q.uuid q.command q.param
  rw [handlerCall, q.msg_eq, htokens, Option.bind_some]
  dsimp only
  rw [hcmd, find_gHds, Option.map_some]

/-- The answer is pushed under the id of the request. -/
theorem processMsg_msg (q : KbRequest) (code : GvmErrCode) :
    processMsg (fun _ _ => code) q.msg = (code, some (genUUID q.uuid, code)) := by
  rw [q.msg_eq]
  exact processMsg_phpMessage (fun _ _ => code) q.uuid q.command q.param

/-- Requests with different ids have different messages. -/
theorem name_eq_of_msg_eq {q q' : KbRequest} (h : q.msg = q'.msg) : q.name = q'.name := by
  have hreply := q.processMsg_msg .success
  rw [h, q'.processMsg_msg, Prod.mk.injEq, Option.some.injEq, Prod.mk.injEq] at hreply
  rw [q.name_eq, q'.name_eq, hreply.2.1]

theorem length_kbMessage_le {n : ℕ} {fields : List Text} (h : ∀ f ∈ fields, f.length < n) :
    (kbMessage fields).length ≤ fields.length * n := by
  induction fields with
  | nil => simp [kbMessage]
  | cons f fields ih =>
    have hfirst := h f List.mem_cons_self
    have hrest := ih fun g hg => h g (List.mem_cons_of_mem f hg)
    rw [kbMessage_cons, List.length_append, List.length_cons, List.length_cons, Nat.succ_mul]
    omega

theorem length_text_lt {n : ℕ} (buf : CStr n) (h : n ≤ maxMemListSize) :
    buf.text.length < maxMemListSize := lt_of_lt_of_le buf.fits h

/-- Every field of a message fits a buffer of the client. -/
theorem length_fields_lt (q : KbRequest) : ∀ f ∈ q.param.fields, f.length < maxMemListSize := by
  have hchecked := PhpCommand.checked_getParam q.accepted
  cases hparam : q.param with
  | keyTask p =>
    simp only [PhpParam.fields, List.forall_mem_cons]
    exact ⟨length_text_lt _ (by decide), length_text_lt _ (by decide),
      length_text_lt _ (by decide), by simp⟩
  | createTask p =>
    simp only [PhpParam.fields, List.forall_mem_cons]
    exact ⟨length_text_lt _ (by decide), p.groupId.fits, p.groupName.fits, p.hosts.fits,
      length_text_lt _ (by decide), length_text_lt _ (by decide), length_text_lt _ (by decide),
      by simp⟩
  | keyHydra p =>
    simp only [PhpParam.fields, List.forall_mem_cons]
    exact ⟨length_text_lt _ (by decide), length_text_lt _ (by decide), by simp⟩
  | createHydra p =>
    rw [hparam] at hchecked
    have htype : p.hostsType = 0 ∨ p.hostsType = 1 := by
      have hhosts := hchecked.2.1
      unfold chkHydraHostsIntern at hhosts
      grind
    have hdecimal : (decimal p.hostsType).length < maxMemListSize := by
      rcases htype with h | h <;> rw [h] <;> decide
    simp only [PhpParam.fields, List.forall_mem_cons]
    exact ⟨length_text_lt _ (by decide), hdecimal, p.hosts.fits, p.services.fits, p.opts.fits,
      p.loginList.fits, p.passwdList.fits, length_text_lt _ (by decide),
      length_text_lt _ (by decide), length_text_lt _ (by decide), by simp⟩

/-- A message fits the buffer of the daemon, and it is not empty. -/
theorem popped_msg (q : KbRequest) : popped maxCacheSize q.msg = .message q.msg := by
  have hcmd : q.command.cmd.length < maxMemListSize := by cases q.command <;> decide
  have huuid : (genUUID q.uuid).text.length < maxMemListSize := length_text_lt _ (by decide)
  have hlen : q.msg.length ≤ (q.param.fields.length + 2) * maxMemListSize := by
    rw [q.msg_eq]
    apply length_kbMessage_le
    exact List.forall_mem_cons.mpr ⟨huuid, List.forall_mem_cons.mpr ⟨hcmd, q.length_fields_lt⟩⟩
  have hfew : q.param.fields.length ≤ 10 := by
    cases q.param <;> simp [PhpParam.fields]
  have hne : q.msg ≠ [] := by simp [q.msg_eq, phpMessage, kbMessage_cons]
  have hroom : (q.param.fields.length + 2) * maxMemListSize ≤ 12 * maxMemListSize :=
    Nat.mul_le_mul_right _ (by omega)
  rw [popped, if_neg hne, if_pos (hlen.trans (hroom.trans (by decide)))]

end KbRequest

/-- The errors that `sendKbMsg` finds itself. -/
def ownErrors : List ℤ :=
  [GvmErrCode.redisConn.toInt, GvmErrCode.waitTimeout.toInt, GvmErrCode.fail.toInt]

/-! ### The rounds -/

section Rounds

variable {ρ : Type*} [RedisServer ρ] {q : KbRequest} {server : ρ} {c : SendKbMsg} {a : Attempt}

/-- A client adds to the queue only. -/
theorem mem_elems_sendKbMsg {name value : Text} (hname : name ≠ openvasMsgName)
    (h : value ∈ elems (sendKbMsg q server c a).1 name) : value ∈ elems server name := by
  unfold sendKbMsg at h
  split at h
  · exact h
  · rcases KbRedis.mem_elems_redisCmd h with h | h
    · exact h
    · exact absurd (RedisCmd.lpush.inj h).1.symm hname
  · rcases KbRedis.mem_elems_redisCmd h with h | h
    · exact h
    · exact absurd h (by simp)
  · exact h

/-- A client gives no time to live. -/
theorem hasTtl_sendKbMsg {name : Text} (h : hasTtl (sendKbMsg q server c a).1 name = true) :
    hasTtl server name = true := by
  unfold sendKbMsg at h
  split at h
  · exact h
  · exact (KbRedis.hasTtl_redisCmd h).resolve_right (by simp)
  · exact (KbRedis.hasTtl_redisCmd h).resolve_right (by simp)
  · exact h

/-- The queue gets the message when the push is executed. -/
theorem queue_sendKbMsg :
    elems (sendKbMsg q server c a).1 openvasMsgName =
      if c.phase = .push ∧ c.kb.executes a then elems server openvasMsgName ++ [q.msg]
      else elems server openvasMsgName := by
  unfold sendKbMsg
  split
  · rename_i hphase
    simp [hphase]
  · rename_i hphase
    dsimp only
    rw [KbRedis.redisCmd_server]
    split <;> simp_all
  · rename_i hphase
    have hne : openvasMsgName ≠ (RedisCmd.brpop q.name).name := q.name_ne.symm
    rw [KbRedis.elems_redisCmd_of_ne hne]
    simp [hphase]
  · rename_i hphase
    simp [hphase]

/-- What a finished call returns: an error of its own, or an answer in its list. -/
theorem done_sendKbMsg {ret : ℤ} (h : (sendKbMsg q server c a).2.phase = .done ret) :
    c.phase = .done ret ∨ ret ∈ ownErrors ∨
      ∃ value ∈ elems server q.name, ret = sendResult (some (.array [q.name, value])) := by
  unfold sendKbMsg at h
  split at h
  · dsimp only at h
    split at h
    · simp at h
    · right; left
      simp_all [ownErrors]
  · dsimp only at h
    split at h
    · simp at h
    · dsimp only at h
      split at h
      · simp at h
      · right; left
        simp_all [ownErrors]
  · dsimp only at h
    split at h
    · simp at h
    · rename_i rep hrep
      obtain rfl : sendResult rep = ret := by simpa using h
      right
      cases rep with
      | none => exact Or.inl (by decide)
      | some rep =>
        rcases KbRedis.redisCmd_reply hrep with rfl | ⟨-, rfl⟩
        · exact Or.inl (by decide)
        · cases hlist : elems server q.name with
          | nil =>
            left
            rw [reply_brpop, hlist, List.head?_nil, Option.elim_none]
            decide
          | cons value elems =>
            exact Or.inr ⟨value, List.mem_cons_self, by rw [reply_brpop, hlist]; rfl⟩
  · exact Or.inl h

end Rounds

/-- A poll does not lead to an answer. -/
theorem afterPoll_ne (gId : ℕ) (found : RecvKbMsg) :
    (∀ uuid ret, LoopPhase.afterPoll gId found ≠ .reply uuid ret) ∧
      ∀ uuid, LoopPhase.afterPoll gId found ≠ .expire uuid := by
  cases found with
  | message inbuf =>
    unfold LoopPhase.afterPoll
    dsimp only
    split <;> simp
  | empty => simp [LoopPhase.afterPoll]
  | connError => simp [LoopPhase.afterPoll]

/-- A message in hand was popped from the queue. -/
theorem hand_afterPoll {ρ : Type*} [RedisServer ρ] {kb : KbRedis} {server : ρ} {name m : Text}
    {a : Attempt} {rep : Option RedisReply} {gId capacity : ℕ}
    (hrep : (kb.redisCmd server (.rpop name) a).2.2 = some rep)
    (hhand : m ∈ (LoopPhase.afterPoll gId (redisPopStr capacity rep)).hand) :
    kb.executes a = true ∧ (elems server name).head? = some m ∧
      (LoopPhase.afterPoll gId (redisPopStr capacity rep)).hand = [m] := by
  cases rep with
  | none => simp [redisPopStr, LoopPhase.afterPoll, LoopPhase.hand] at hhand
  | some rep =>
    rcases KbRedis.redisCmd_reply hrep with rfl | ⟨hexec, rfl⟩
    · simp [redisPopStr, LoopPhase.afterPoll, LoopPhase.hand] at hhand
    · cases hlist : elems server name with
      | nil => simp [reply_rpop, hlist, redisPopStr, LoopPhase.afterPoll, LoopPhase.hand] at hhand
      | cons value elems =>
        simp only [reply_rpop, hlist, List.head?_cons, Option.elim_some, redisPopStr, popped]
          at hhand ⊢
        refine ⟨hexec, ?_⟩
        split at hhand
        · simp [LoopPhase.afterPoll, LoopPhase.hand] at hhand
        · split at hhand
          · rename_i hempty hfits
            rw [LoopPhase.afterPoll] at hhand
            split at hhand
            · rename_i hfew
              obtain rfl : m = value := by simpa [LoopPhase.hand] using hhand
              simp [hempty, hfits, LoopPhase.afterPoll, hfew, LoopPhase.hand]
            · simp [LoopPhase.hand] at hhand
          · simp [LoopPhase.afterPoll, LoopPhase.hand] at hhand

theorem processed_endTurn (s : LoopState) (turn : LoopTurn) :
    processed (s.endTurn turn).log = processed s.log := by
  unfold LoopState.endTurn
  dsimp only
  split
  · simp [LoopState.act, processed]
  · rfl

/-- A turn processes the message that its poll found, unless the queue is stale. -/
theorem processed_loopTurn {s : LoopState} (hrun : s.isRun = true) (hpoll : s.timeout ≤ 0)
    (found : RecvKbMsg) (hasMore : ℤ) (isRun : Bool) :
    processed (s.loopTurn ⟨found, hasMore, isRun⟩).log =
      processed s.log ++ (LoopPhase.afterPoll s.gId found).hand := by
  unfold LoopState.loopTurn
  rw [if_pos hrun, if_pos hpoll]
  cases found with
  | message inbuf =>
    by_cases hfew : s.gId < maxIntervalCnt
    · have hhand : (LoopPhase.afterPoll s.gId (.message inbuf)).hand =
          OpenvasTool.processed [.recvKbMsg (.message inbuf), .processMsg inbuf] := by
        rw [LoopPhase.afterPoll, if_pos hfew]
        rfl
      rw [hhand, ← processed_append]
      by_cases hzero : s.gId = 0
      · simp [hzero, processed_endTurn, LoopState.act]
      · simp [hzero, hfew, processed_endTurn, LoopState.act]
    · have hzero : s.gId ≠ 0 := fun h => hfew (by rw [h]; decide)
      have hhand : (LoopPhase.afterPoll s.gId (.message inbuf)).hand =
          OpenvasTool.processed [.recvKbMsg (.message inbuf), .clearKb] := by
        rw [LoopPhase.afterPoll, if_neg hfew]
        rfl
      rw [hhand, ← processed_append]
      simp [hzero, hfew, LoopState.act]
  | empty =>
    have hhand : (LoopPhase.afterPoll s.gId .empty).hand =
        OpenvasTool.processed [.recvKbMsg .empty, .processIdle] := rfl
    rw [hhand, ← processed_append]
    simp [processed_endTurn, LoopState.act]
  | connError =>
    have hhand : (LoopPhase.afterPoll s.gId .connError).hand =
        OpenvasTool.processed [.recvKbMsg .connError] := rfl
    rw [hhand, ← processed_append]
    simp [processed_endTurn, LoopState.act]

/-- Without a poll nothing is processed. -/
theorem processed_loopTurn_of_not_poll {s : LoopState} (h : ¬(s.isRun = true ∧ s.timeout ≤ 0))
    (turn : LoopTurn) : processed (s.loopTurn turn).log = processed s.log := by
  unfold LoopState.loopTurn
  by_cases hrun : s.isRun = true
  · rw [if_pos hrun, if_neg fun hpoll => h ⟨hrun, hpoll⟩, processed_endTurn]
    simp [LoopState.act, processed]
  · rw [if_neg hrun]

/-! ### The invariant -/

namespace KbSystem

variable {ρ ι ω η : Type*} [RedisServer ρ]

/-- A return value for the requests with this id. -/
def AnswerOf (q : ι → KbRequest) (s : KbSystem ρ ι ω) (name : Text) (ret : ℤ) : Prop :=
  ∃ k code, name = (q k).name ∧ ((q k).msg, code) ∈ s.answered ∧ ret = code.toInt

/-- The server, the queue, the loop and the calls agree with what happened. -/
structure Delivers (q : ι → KbRequest) (s : KbSystem ρ ι ω) : Prop where
  queue : elems s.server openvasMsgName = s.mail.waiting
  ttl : hasTtl s.server openvasMsgName = false
  sent : ∀ m ∈ s.mail.sent, ∃ k, m = (q k).msg
  taken : s.mail.taken = s.answered.map Prod.fst ++ s.phase.hand
  logged : OpenvasTool.processed s.loop.log = s.mail.taken
  reply : ∀ uuid ret, s.phase = .reply uuid ret → s.AnswerOf q uuid ret
  expire : ∀ uuid, s.phase = .expire uuid → ∃ k, uuid = (q k).name
  stored : ∀ name, name ≠ openvasMsgName → ∀ value ∈ elems s.server name,
    ∃ ret, value = decimal ret ∧ s.AnswerOf q name ret
  done : ∀ k ret, (s.calls k).phase = .done ret →
    ret ∈ ownErrors ∨ s.AnswerOf q (q k).name ret

variable {svc : Service ω η} {q : ι → KbRequest} {s : KbSystem ρ ι ω}

theorem delivers_init (w : ω) : Delivers q (init ρ w : KbSystem ρ ι ω) where
  queue := elems_fresh openvasMsgName
  ttl := hasTtl_fresh openvasMsgName
  sent := by simp [init, Delivery.empty]
  taken := rfl
  logged := rfl
  reply := by simp [init]
  expire := by simp [init]
  stored := by simp [init]
  done := by simp [init, SendKbMsg.start]

namespace Delivers

theorem client [DecidableEq ι] (h : Delivers q s) (k : ι) (a : Attempt) :
    Delivers q (s.client q k a) where
  queue := by
    show elems (sendKbMsg (q k) s.server (s.calls k) a).1 openvasMsgName = _
    rw [queue_sendKbMsg, KbSystem.client]
    split <;> simp [h.queue]
  ttl := by
    have hmono := @hasTtl_sendKbMsg ρ _ (q k) s.server (s.calls k) a openvasMsgName
    have hold := h.ttl
    show hasTtl (sendKbMsg (q k) s.server (s.calls k) a).1 openvasMsgName = false
    grind
  sent := by
    intro m hm
    unfold KbSystem.client at hm
    dsimp only at hm
    split at hm
    · rw [Delivery.sent_send, List.mem_append, List.mem_singleton] at hm
      rcases hm with hm | rfl
      · exact h.sent m hm
      · exact ⟨k, rfl⟩
    · exact h.sent m hm
  taken := by
    have htaken := h.taken
    unfold KbSystem.client
    dsimp only
    split <;> simpa using htaken
  logged := by
    have hlogged := h.logged
    unfold KbSystem.client
    dsimp only
    split <;> simpa using hlogged
  reply := h.reply
  expire := h.expire
  stored := fun name hname value hvalue =>
    h.stored name hname value (mem_elems_sendKbMsg hname hvalue)
  done := by
    intro j ret hret
    by_cases hj : j = k
    · subst hj
      rw [KbSystem.client] at hret
      dsimp only at hret
      rw [Function.update_self] at hret
      obtain hold | hown | ⟨value, hvalue, rfl⟩ := done_sendKbMsg hret
      · exact h.done j ret hold
      · exact Or.inl hown
      · obtain ⟨ret, rfl, hanswer⟩ := h.stored _ (q j).name_ne value hvalue
        obtain ⟨j', code, hname, hmem, rfl⟩ := hanswer
        refine Or.inr ⟨j', code, hname, hmem, ?_⟩
        rw [sendResult, redisBpopInt_decimal]
        rfl
    · rw [KbSystem.client] at hret
      dsimp only at hret
      rw [Function.update_of_ne hj] at hret
      exact h.done j ret hret

theorem clearKb (h : Delivers q s) (hphase : s.phase = .clear) (a : Attempt) :
    Delivers q (s.clearKb a) where
  queue := by
    unfold KbSystem.clearKb
    dsimp only
    rw [KbRedis.redisCmd_server]
    split
    · simp
    · exact h.queue
  ttl := KbRedis.hasTtl_redisCmd_eq_false h.ttl (by simp)
  sent := by
    unfold KbSystem.clearKb
    dsimp only
    split <;> exact h.sent
  taken := by
    have htaken := h.taken
    rw [hphase] at htaken
    unfold KbSystem.clearKb
    dsimp only
    split <;> split <;> simpa [LoopPhase.hand] using htaken
  logged := by
    have hlogged := h.logged
    unfold KbSystem.clearKb
    dsimp only
    split <;> simpa using hlogged
  reply := by
    intro uuid ret hreply
    unfold KbSystem.clearKb at hreply
    dsimp only at hreply
    split at hreply <;> simp at hreply
  expire := by
    intro uuid hexpire
    unfold KbSystem.clearKb at hexpire
    dsimp only at hexpire
    split at hexpire <;> simp at hexpire
  stored := by
    intro name hname value hvalue
    exact h.stored name hname value ((KbRedis.mem_elems_redisCmd hvalue).resolve_right (by simp))
  done := h.done

theorem recvKbMsg (h : Delivers q s) (hphase : s.phase = .poll)
    (hpoll : s.loop.isRun = true ∧ s.loop.timeout ≤ 0) (a : Attempt) (hasMore : ℤ) (isRun : Bool) :
    Delivers q (s.recvKbMsg a hasMore isRun) := by
  have httl : hasTtl (s.kb.redisCmd s.server (.rpop openvasMsgName) a).1 openvasMsgName = false :=
    KbRedis.hasTtl_redisCmd_eq_false h.ttl (by simp)
  have hstored : ∀ name, name ≠ openvasMsgName →
      ∀ value ∈ elems (s.kb.redisCmd s.server (.rpop openvasMsgName) a).1 name,
        ∃ ret, value = decimal ret ∧ s.AnswerOf q name ret := fun name hname value hvalue =>
    h.stored name hname value ((KbRedis.mem_elems_redisCmd hvalue).resolve_right (by simp))
  have hqueue : elems (s.kb.redisCmd s.server (.rpop openvasMsgName) a).1 openvasMsgName =
      if s.kb.executes a then s.mail.waiting.tail else s.mail.waiting := by
    rw [KbRedis.redisCmd_server, ← h.queue]
    split
    · exact elems_rpop s.server openvasMsgName
    · rfl
  have htaken : s.mail.taken = s.answered.map Prod.fst := by
    simpa [hphase, LoopPhase.hand] using h.taken
  unfold KbSystem.recvKbMsg
  dsimp only
  split
  · refine ⟨?_, httl, ?_, ?_, ?_, h.reply, h.expire, hstored, h.done⟩
    · rw [hqueue]
      split <;> rfl
    · split <;> exact h.sent
    · dsimp only
      split <;> simpa [hphase, LoopPhase.hand] using htaken
    · have hlogged := h.logged
      dsimp only
      split <;> exact hlogged
  · rename_i rep hrep
    -- a message in hand is the oldest one of the queue, and it was handed out
    have hmail : ∀ next, next = LoopPhase.afterPoll s.loop.gId (redisPopStr maxCacheSize rep) →
        (if s.kb.executes a then if next.hand = [] then s.mail.lose else s.mail.take
          else s.mail).taken = s.mail.taken ++ next.hand := by
      rintro next rfl
      cases hhand : (LoopPhase.afterPoll s.loop.gId (redisPopStr maxCacheSize rep)).hand with
      | nil => split <;> simp
      | cons m l =>
        obtain ⟨hexec, hhead, hsingle⟩ := hand_afterPoll hrep (hhand ▸ List.mem_cons_self)
        rw [h.queue] at hhead
        rw [hhand] at hsingle
        simp [hexec, Delivery.take, hhead, hsingle]
    refine ⟨?_, httl, ?_, ?_, ?_, ?_, ?_, hstored, h.done⟩
    · rw [hqueue]
      split
      · split <;> rfl
      · rfl
    · split
      · split <;> exact h.sent
      · exact h.sent
    · rw [hmail _ rfl, htaken]
    · rw [hmail _ rfl, processed_loopTurn hpoll.1 hpoll.2, h.logged]
    · exact fun uuid ret hreply => absurd hreply ((afterPoll_ne _ _).1 uuid ret)
    · exact fun uuid hexpire => absurd hexpire ((afterPoll_ne _ _).2 uuid)

/-- A round of the answer: the value is pushed under the id of a request. -/
theorem pushResult (h : Delivers q s) {uuid : Text} {ret : ℤ} (hphase : s.phase = .reply uuid ret)
    (a : Attempt) (hasMore : ℤ) (isRun : Bool) : Delivers q (s.daemon a hasMore isRun) := by
  have hanswer := h.reply uuid ret hphase
  have hname : openvasMsgName ≠ uuid := by
    obtain ⟨k, -, rfl, -, -⟩ := hanswer
    exact (q k).name_ne.symm
  have htaken : s.mail.taken = s.answered.map Prod.fst := by
    simpa [hphase, LoopPhase.hand] using h.taken
  unfold KbSystem.daemon
  rw [hphase]
  refine ⟨?_, ?_, h.sent, ?_, h.logged, ?_, ?_, ?_, h.done⟩
  · exact (KbRedis.elems_redisCmd_of_ne hname).trans h.queue
  · exact KbRedis.hasTtl_redisCmd_eq_false h.ttl (by simp)
  · dsimp only
    split
    · simpa [LoopPhase.hand] using htaken
    · split <;> simpa [LoopPhase.hand] using htaken
  · intro uuid' ret' hreply
    dsimp only at hreply
    split at hreply
    · obtain ⟨rfl, rfl⟩ := LoopPhase.reply.inj hreply
      exact hanswer
    · split at hreply <;> simp at hreply
  · intro uuid' hexpire
    dsimp only at hexpire
    split at hexpire
    · simp at hexpire
    · split at hexpire
      · obtain rfl := LoopPhase.expire.inj hexpire
        obtain ⟨k, -, hk, -, -⟩ := hanswer
        exact ⟨k, hk⟩
      · simp at hexpire
  · intro name hne value hvalue
    rcases KbRedis.mem_elems_redisCmd hvalue with hold | hpush
    · exact h.stored name hne value hold
    · obtain ⟨rfl, rfl⟩ := RedisCmd.lpush.inj hpush
      exact ⟨ret, rfl, hanswer⟩

/-- A round of the time to live of an answer. -/
theorem expireResult (h : Delivers q s) {uuid : Text} (hphase : s.phase = .expire uuid)
    (a : Attempt) (hasMore : ℤ) (isRun : Bool) : Delivers q (s.daemon a hasMore isRun) := by
  obtain ⟨k, rfl⟩ := h.expire uuid hphase
  have hname : openvasMsgName ≠ (q k).name := (q k).name_ne.symm
  have htaken : s.mail.taken = s.answered.map Prod.fst := by
    simpa [hphase, LoopPhase.hand] using h.taken
  unfold KbSystem.daemon
  rw [hphase]
  refine ⟨?_, ?_, h.sent, ?_, h.logged, ?_, ?_, ?_, h.done⟩
  · exact (KbRedis.elems_redisCmd_of_ne hname).trans h.queue
  · exact KbRedis.hasTtl_redisCmd_eq_false h.ttl fun hcmd => hname (RedisCmd.expire.inj hcmd).symm
  · dsimp only
    split <;> simpa [LoopPhase.hand] using htaken
  · intro uuid' ret' hreply
    dsimp only at hreply
    split at hreply <;> simp at hreply
  · intro uuid' hexpire
    dsimp only at hexpire
    split at hexpire
    · simp at hexpire
    · exact ⟨k, (LoopPhase.expire.inj hexpire).symm⟩
  · intro name hne value hvalue
    exact h.stored name hne value ((KbRedis.mem_elems_redisCmd hvalue).resolve_right (by simp))

theorem daemon (h : Delivers q s) (a : Attempt) (hasMore : ℤ) (isRun : Bool) :
    Delivers q (s.daemon a hasMore isRun) := by
  cases hphase : s.phase with
  | clear =>
    rw [KbSystem.daemon, hphase]
    exact h.clearKb hphase a
  | poll =>
    rw [KbSystem.daemon, hphase]
    dsimp only
    split
    · rename_i hpoll
      exact h.recvKbMsg hphase hpoll a hasMore isRun
    · rename_i hpoll
      refine ⟨h.queue, h.ttl, h.sent, ?_, ?_, by simp, by simp, h.stored, h.done⟩
      · simpa [hphase] using h.taken
      · exact (processed_loopTurn_of_not_poll hpoll _).trans h.logged
  | process inbuf =>
    rw [KbSystem.daemon, hphase]
    exact h
  | reply uuid ret => exact h.pushResult hphase a hasMore isRun
  | expire uuid => exact h.expireResult hphase a hasMore isRun

/-- A message is processed by the handler of its command. -/
theorem processed (h : Delivers q s) {k : ι} (hphase : s.phase = .process (q k).msg) (w : ω)
    (code : GvmErrCode) : Delivers q (s.processed (q k).msg w code) := by
  have hmono : ∀ {name ret}, s.AnswerOf q name ret →
      (s.processed (q k).msg w code).AnswerOf q name ret := by
    rintro name ret ⟨k', code', hname, hmem, hret⟩
    exact ⟨k', code', hname, List.mem_append_left _ hmem, hret⟩
  have hstep : s.processed (q k).msg w code =
      { s with
        world := w
        answered := s.answered ++ [((q k).msg, code)]
        phase := .reply (q k).name code.toInt } := by
    rw [KbSystem.processed, (q k).processMsg_msg, (q k).name_eq]
  rw [hstep] at hmono ⊢
  refine ⟨h.queue, h.ttl, h.sent, ?_, h.logged, ?_, ?_, ?_, ?_⟩
  · simpa [hphase, LoopPhase.hand] using h.taken
  · intro uuid ret hreply
    obtain ⟨rfl, rfl⟩ := LoopPhase.reply.inj hreply
    exact ⟨k, code, rfl, List.mem_append_right _ List.mem_cons_self, rfl⟩
  · intro uuid hexpire
    simp at hexpire
  · intro name hne value hvalue
    obtain ⟨ret, hvalue, hanswer⟩ := h.stored name hne value hvalue
    exact ⟨ret, hvalue, hmono hanswer⟩
  · intro j ret hdone
    exact (h.done j ret hdone).imp_right hmono

/-- The message in hand is one of a client. -/
theorem hand_eq (h : Delivers q s) {inbuf : Text} (hphase : s.phase = .process inbuf) :
    ∃ k, inbuf = (q k).msg := by
  apply h.sent
  apply s.mail.taken_sublist.subset
  rw [h.taken, hphase]
  simp [LoopPhase.hand]

theorem handler (h : Delivers q s) (e : η) : Delivers q (s.handler svc e) := by
  unfold KbSystem.handler
  split
  · rename_i inbuf hphase
    obtain ⟨k, rfl⟩ := h.hand_eq hphase
    rw [(q k).handlerCall_msg]
    dsimp only
    split
    · exact h
    · exact h.processed hphase _ _
  · exact h

theorem expired (h : Delivers q s) (name : Text) :
    Delivers q { s with server := elapse s.server name } := by
  refine ⟨?_, ?_, h.sent, h.taken, h.logged, h.reply, h.expire, ?_, h.done⟩
  · exact (elems_elapse_of_hasTtl h.ttl).trans h.queue
  · have hmono := hasTtl_elapse s.server name openvasMsgName
    have hold := h.ttl
    grind
  · intro name' hne value hvalue
    exact h.stored name' hne value (mem_elems_elapse hvalue)

theorem step [DecidableEq ι] (h : Delivers q s) (event : KbEvent ι η) :
    Delivers q (s.step svc q event) := by
  cases event with
  | client k a => exact h.client k a
  | daemon a hasMore isRun => exact h.daemon a hasMore isRun
  | handler e => exact h.handler e
  | background e =>
    exact ⟨h.queue, h.ttl, h.sent, h.taken, h.logged, h.reply, h.expire, h.stored, h.done⟩
  | expired name => exact h.expired name

end Delivers

end KbSystem

end OpenvasTool
