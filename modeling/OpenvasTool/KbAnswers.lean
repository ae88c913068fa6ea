import OpenvasTool.KbRuns
import OpenvasTool.Support.Runs

/-!
# Answers to requests

The whole system refines its service: in every interleaving and whatever breaks, what is served is
one sequence of requests, in the order in which they were pushed, each at most once unless its
client had to repeat its push, and the clients return the results of this sequence or errors of
their own.
-/

namespace OpenvasTool

open Posix Support RedisServer

/-! ### The service alone -/

/-- The states of a service without any messages, and the requests it served with their results. -/
inductive Service.Reach {ω η : Type*} (svc : Service ω η) (w₀ : ω) :
    ω → List (PhpCommand × Text × GvmErrCode) → Prop where
  | start : Reach svc w₀ w₀ []
  | background {w : ω} {served : List (PhpCommand × Text × GvmErrCode)} (e : η) :
      Reach svc w₀ w served → Reach svc w₀ (svc.background w e) served
  | request {w w' : ω} {served : List (PhpCommand × Text × GvmErrCode)} {e : η}
      {command : PhpCommand} {param : Text} {code : GvmErrCode} :
      Reach svc w₀ w served → svc.handle w e command param = some (w', code) →
        Reach svc w₀ w' (served ++ [(command, param, code)])

/-- A request as the service sees it. -/
def KbRequest.served (q : KbRequest) (code : GvmErrCode) : PhpCommand × Text × GvmErrCode :=
  (q.command, kbMessage q.param.fields, code)

namespace KbSystem

variable {ρ ι ω η : Type*} [RedisServer ρ] [DecidableEq ι] {svc : Service ω η} {q : ι → KbRequest}
  {s : KbSystem ρ ι ω} {w₀ : ω} {order : List (ι × GvmErrCode)}

/-- The state behind a list of events. -/
def runs (svc : Service ω η) (q : ι → KbRequest) (s : KbSystem ρ ι ω)
    (events : List (KbEvent ι η)) : KbSystem ρ ι ω := run (step svc q) s events

theorem runs_append (events events' : List (KbEvent ι η)) :
    s.runs svc q (events ++ events') = (s.runs svc q events).runs svc q events' := run_append _ _ _

/-! ### The order of the requests -/

/-- The answered messages are those of these calls, and the service alone reaches the state by
serving them. -/
structure Serves (svc : Service ω η) (q : ι → KbRequest) (w₀ : ω) (s : KbSystem ρ ι ω)
    (order : List (ι × GvmErrCode)) : Prop where
  answered : s.answered = order.map fun (k, code) => ((q k).msg, code)
  world : svc.Reach w₀ s.world (order.map fun (k, code) => (q k).served code)

omit [DecidableEq ι] in
/-- The rounds of the daemon neither serve nor answer. -/
theorem daemon_frame (a : Attempt) (hasMore : ℤ) (isRun : Bool) :
    (s.daemon a hasMore isRun).answered = s.answered ∧
      (s.daemon a hasMore isRun).world = s.world := by
  unfold daemon
  cases s.phase with
  | poll =>
    dsimp only
    split
    · unfold recvKbMsg
      dsimp only
      split <;> exact ⟨rfl, rfl⟩
    · exact ⟨rfl, rfl⟩
  | _ => exact ⟨rfl, rfl⟩

omit [DecidableEq ι] in
/-- A handler serves the request of the message in hand. -/
theorem Serves.handler (h : Delivers q s) {w₀ : ω} {order : List (ι × GvmErrCode)}
    (hserves : Serves svc q w₀ s order) (e : η) :
    ∃ order', Serves svc q w₀ (s.handler svc e) order' := by
  unfold KbSystem.handler
  split
  swap
  · exact ⟨order, hserves⟩
  rename_i inbuf hphase
  obtain ⟨k, rfl⟩ := h.hand_eq hphase
  rw [(q k).handlerCall_msg]
  dsimp only
  split
  · exact ⟨order, hserves⟩
  · rename_i w code hcall
    refine ⟨order ++ [(k, code)], ?_, ?_⟩
    · rw [KbSystem.processed, (q k).processMsg_msg, List.map_append, ← hserves.answered]
      rfl
    · rw [List.map_append]
      exact .request hserves.world hcall

theorem Serves.step (h : Delivers q s) (event : KbEvent ι η) {w₀ : ω}
    {order : List (ι × GvmErrCode)} (hserves : Serves svc q w₀ s order) :
    ∃ order', Serves svc q w₀ (s.step svc q event) order' := by
  cases event with
  | client k a => exact ⟨order, hserves.answered, hserves.world⟩
  | daemon a hasMore isRun =>
    obtain ⟨hanswered, hworld⟩ := daemon_frame (s := s) a hasMore isRun
    exact ⟨order, hanswered.trans hserves.answered, hworld ▸ hserves.world⟩
  | handler e => exact hserves.handler h e
  | background e => exact ⟨order, hserves.answered, .background e hserves.world⟩
  | expired name => exact ⟨order, hserves.answered, hserves.world⟩

/-! ### The pushes of a call -/

/-- The pushes that a call may have executed so far, when it may repeat a push this often. -/
def pushes (repeats : ℕ) (c : SendKbMsg) : ℕ :=
  match c.phase with
  | .connect => 0
  | .push => if c.kb.retry then repeats else 0
  | _ => 1 + repeats

/-- A round of a call executes at most the pushes it may. -/
theorem pushes_sendKbMsg {repeats : ℕ} (request : KbRequest) (server : ρ) (c : SendKbMsg)
    (a : Attempt) (ha : a.exchange = .lostReply → 1 ≤ repeats) :
    pushes repeats c + (if c.phase = .push ∧ c.kb.executes a then 1 else 0) ≤
      pushes repeats (sendKbMsg request server c a).2 := by
  cases hphase : c.phase with
  | connect => simp [pushes, hphase]
  | push =>
    simp only [sendKbMsg, hphase, true_and]
    cases hrep : (c.kb.redisCmd server (.lpush openvasMsgName request.msg) a).2.2 with
    | none =>
      obtain ⟨hretry, hkb, hlost⟩ := KbRedis.redisCmd_again hrep
      dsimp only
      rw [hkb]
      by_cases hexec : c.kb.executes a = true
      · simpa [pushes, hphase, hretry, hexec] using ha (hlost hexec)
      · simp [pushes, hphase, hretry, hexec]
    | some rep =>
      have hnew : ∀ kb, pushes repeats ⟨if redisPushed rep = true then .wait
          else .done GvmErrCode.fail.toInt, kb⟩ = 1 + repeats := by
        intro kb
        cases redisPushed rep <;> rfl
      dsimp only
      rw [hnew, pushes, hphase]
      dsimp only
      split <;> split <;> omega
  | wait =>
    simp only [sendKbMsg, hphase]
    cases (c.kb.redisCmd server (.brpop request.name) a).2.2 <;> simp [pushes, hphase]
  | done ret => simp [sendKbMsg, pushes, hphase]

/-- The messages of a call in the queue and behind it are at most its pushes. -/
def Budget (q : ι → KbRequest) (repeats : ℕ) (k : ι) (s : KbSystem ρ ι ω) : Prop :=
  s.mail.sent.count (q k).msg ≤ pushes repeats (s.calls k)

/-- The reply of a command of this call is lost. -/
def LosesReply (k : ι) : KbEvent ι η → Prop
  | .client j a => j = k ∧ a.exchange = .lostReply
  | _ => False

omit [DecidableEq ι] in
theorem sent_daemon (a : Attempt) (hasMore : ℤ) (isRun : Bool) :
    (s.daemon a hasMore isRun).mail.sent = s.mail.sent ∧
      (s.daemon a hasMore isRun).calls = s.calls := by
  unfold daemon
  cases s.phase with
  | clear =>
    refine ⟨?_, rfl⟩
    unfold clearKb
    dsimp only
    split <;> rfl
  | poll =>
    dsimp only
    split
    · unfold recvKbMsg
      dsimp only
      split
      · refine ⟨?_, rfl⟩
        split <;> rfl
      · refine ⟨?_, rfl⟩
        split
        · split <;> rfl
        · rfl
    · exact ⟨rfl, rfl⟩
  | _ => exact ⟨rfl, rfl⟩

omit [RedisServer ρ] [DecidableEq ι] in
theorem sent_handler (svc : Service ω η) (s : KbSystem ρ ι ω) (e : η) :
    (s.handler svc e).mail = s.mail ∧ (s.handler svc e).calls = s.calls := by
  unfold handler
  split
  · split
    · exact ⟨rfl, rfl⟩
    · split <;> exact ⟨rfl, rfl⟩
  · exact ⟨rfl, rfl⟩

theorem Budget.step (hinj : Function.Injective fun k => (q k).name) {repeats : ℕ} {k : ι}
    (h : Budget q repeats k s) {event : KbEvent ι η} (hloses : LosesReply k event → 1 ≤ repeats) :
    Budget q repeats k (s.step svc q event) := by
  unfold Budget at h ⊢
  cases event with
  | client j a =>
    have hmsg : (q j).msg = (q k).msg ↔ j = k :=
      ⟨fun heq => hinj (KbRequest.name_eq_of_msg_eq heq), fun heq => by rw [heq]⟩
    simp only [KbSystem.step, KbSystem.client]
    by_cases hj : k = j
    · subst hj
      rw [Function.update_self]
      refine le_trans ?_ (pushes_sendKbMsg (q k) s.server (s.calls k) a fun ha => hloses ⟨rfl, ha⟩)
      split
      · simpa using h
      · simpa using h
    · rw [Function.update_of_ne hj]
      split
      · rw [Delivery.sent_send, List.count_append, List.count_singleton]
        simpa [hmsg, Ne.symm hj] using h
      · exact h
  | daemon a hasMore isRun =>
    obtain ⟨hsent, hcalls⟩ := sent_daemon (s := s) a hasMore isRun
    rw [KbSystem.step, hsent, hcalls]
    exact h
  | handler e =>
    obtain ⟨hmail, hcalls⟩ := sent_handler svc s e
    rw [KbSystem.step, hmail, hcalls]
    exact h
  | background e => exact h
  | expired name => exact h

/-! ### Every interleaving -/

theorem delivers_runs (h : Delivers q s) (events : List (KbEvent ι η)) :
    Delivers q (s.runs svc q events) := invariant_run (fun _ event h => h.step event) h events

variable (ρ) in
/-- Some order of the requests explains every state of a run. -/
theorem exists_serves (svc : Service ω η) (q : ι → KbRequest) (w : ω)
    (events : List (KbEvent ι η)) :
    ∃ order, Serves svc q w ((init ρ w).runs svc q events) order := by
  let Inv : KbSystem ρ ι ω → Prop := fun s => Delivers q s ∧ ∃ order, Serves svc q w s order
  have hrun : Inv ((init ρ w).runs svc q events) :=
    invariant_run
      (fun s event h => ⟨h.1.step event, h.2.elim fun _ hserves => hserves.step h.1 event⟩)
      ⟨delivers_init w, [], rfl, .start⟩ events
  exact hrun.2

omit [DecidableEq ι] in
/-- The requests are served in the order in which they were pushed. -/
theorem Serves.sublist (hserves : Serves svc q w₀ s order) (h : Delivers q s) :
    (order.map fun r => (q r.1).msg).Sublist s.mail.sent := by
  have hfst : (order.map fun r => (q r.1).msg) = s.answered.map Prod.fst := by
    rw [hserves.answered, List.map_map]
    rfl
  have htaken : (s.answered.map Prod.fst).Sublist s.mail.taken := by
    rw [h.taken]
    exact List.sublist_append_left ..
  rw [hfst]
  exact htaken.trans s.mail.taken_sublist

/-- A call is served at most as often as its message was pushed. -/
theorem Serves.count_le (hserves : Serves svc q w₀ s order) (h : Delivers q s)
    (hinj : Function.Injective fun k => (q k).name) (k : ι) :
    (order.map Prod.fst).count k ≤ s.mail.sent.count (q k).msg := by
  have hmsg : Function.Injective fun k => (q k).msg :=
    fun i j heq => hinj (KbRequest.name_eq_of_msg_eq heq)
  have hmap : (order.map fun r => (q r.1).msg) = (order.map Prod.fst).map fun k => (q k).msg := by
    rw [List.map_map]
    rfl
  calc (order.map Prod.fst).count k
      = (order.map fun r => (q r.1).msg).count (q k).msg := by
        rw [hmap, List.count_map_of_injective _ _ hmsg]
    _ ≤ s.mail.sent.count (q k).msg := (hserves.sublist h).count_le _

variable (ρ) in
theorem budget_runs (hinj : Function.Injective fun k => (q k).name) {repeats : ℕ} {k : ι}
    (svc : Service ω η) (w : ω) {events : List (KbEvent ι η)}
    (hloses : ∀ event ∈ events, LosesReply k event → 1 ≤ repeats) :
    Budget q repeats k ((init ρ w).runs svc q events) := by
  have hgen : ∀ (s : KbSystem ρ ι ω) (events : List (KbEvent ι η)),
      (∀ event ∈ events, LosesReply k event → 1 ≤ repeats) → Budget q repeats k s →
        Budget q repeats k (s.runs svc q events) := by
    intro s events hloses hbudget
    induction events generalizing s with
    | nil => exact hbudget
    | cons event events ih =>
      exact ih _ (fun e he => hloses e (List.mem_cons_of_mem event he))
        (hbudget.step hinj (hloses event List.mem_cons_self))
  exact hgen (init ρ w) events hloses (by simp [Budget, init, Delivery.empty])

/-- A call executes no more pushes than these. -/
theorem pushes_le (repeats : ℕ) (c : SendKbMsg) : pushes repeats c ≤ 1 + repeats := by
  unfold pushes
  split
  · omega
  · split <;> omega
  · exact le_rfl

omit [RedisServer ρ] [DecidableEq ι] in
/-- An answer to the id of a call is one to the call. -/
theorem Serves.answerOf (hserves : Serves svc q w₀ s order)
    (hinj : Function.Injective fun k => (q k).name) {k : ι} {ret : ℤ}
    (h : s.AnswerOf q (q k).name ret) : ∃ code, (k, code) ∈ order ∧ ret = code.toInt := by
  obtain ⟨j, code, hname, hmem, hret⟩ := h
  obtain rfl := hinj hname
  rw [hserves.answered] at hmem
  obtain ⟨⟨i, code'⟩, hi, heq⟩ := List.mem_map.mp hmem
  obtain ⟨hmsg, rfl⟩ := Prod.mk.inj heq
  obtain rfl : i = k := hinj (KbRequest.name_eq_of_msg_eq hmsg)
  exact ⟨code', hi, hret⟩

variable (ρ) in
/-- Whatever is lost and however the rounds are interleaved, provided the ids differ: the state of
the daemon is that of the service alone, serving a sequence of the requests in the order in which
they were pushed. A request is served at most twice, and at most once unless the reply to a command
of its client was lost. Every call that returned has an error of its own, or the result of its own
request. -/
theorem runs_linearizable (hinj : Function.Injective fun k => (q k).name) (svc : Service ω η)
    (w : ω) (events : List (KbEvent ι η)) :
    ∃ order : List (ι × GvmErrCode),
      svc.Reach w ((init ρ w).runs svc q events).world (order.map fun r => (q r.1).served r.2) ∧
      (order.map fun r => (q r.1).msg).Sublist ((init ρ w).runs svc q events).mail.sent ∧
      (∀ k, (order.map Prod.fst).count k ≤ 2 ∧
        ((∀ event ∈ events, ¬LosesReply k event) → (order.map Prod.fst).count k ≤ 1)) ∧
      ∀ k ret, (((init ρ w).runs svc q events).calls k).phase = .done ret →
        ret ∈ ownErrors ∨ ∃ code, (k, code) ∈ order ∧ ret = code.toInt := by
  have h : Delivers q ((init ρ w).runs svc q events) := delivers_runs (delivers_init w) events
  obtain ⟨order, hserves⟩ := exists_serves ρ svc q w events
  refine ⟨order, hserves.world, hserves.sublist h, fun k => ?_, fun k ret hdone => ?_⟩
  · have hcount := hserves.count_le h hinj k
    refine ⟨?_, fun hnone => ?_⟩
    · have hbudget : Budget q 1 k ((init ρ w).runs svc q events) :=
        budget_runs ρ hinj svc w fun _ _ _ => le_rfl
      have hmost := pushes_le 1 (((init ρ w).runs svc q events).calls k)
      exact (hcount.trans hbudget).trans hmost
    · have hbudget : Budget q 0 k ((init ρ w).runs svc q events) :=
        budget_runs ρ hinj svc w fun event hevent hlost => absurd hlost (hnone event hevent)
      have hmost := pushes_le 0 (((init ρ w).runs svc q events).calls k)
      exact (hcount.trans hbudget).trans hmost
  · exact (h.done k ret hdone).imp_right (hserves.answerOf hinj)

end KbSystem

/-! ### Two requests -/

theorem isSome_samplePhpKey : (PhpCommand.startTask.getParam samplePhpKey).isSome = true := by
  decide +kernel

/-- A request to start a task, with an id that begins with this word. -/
def sampleKbRequest (word : Fin (2 ^ 32)) : KbRequest where
  uuid := { (HydraEnv.smooth 0).uuid with word := word }
  command := .startTask
  input := samplePhpKey
  param := (PhpCommand.startTask.getParam samplePhpKey).get isSome_samplePhpKey
  accepted := (Option.some_get isSome_samplePhpKey).symm

def sampleRequests (k : Bool) : KbRequest := sampleKbRequest ⟨k.toNat, by cases k <;> decide⟩

theorem sampleRequests_injective : Function.Injective fun k => (sampleRequests k).name := by
  have hne : (genUUID (sampleRequests false).uuid).text ≠
      (genUUID (sampleRequests true).uuid).text := by decide +kernel
  intro j k h
  simp only [KbRequest.name_eq] at h
  cases j <;> cases k
  · rfl
  · exact absurd h hne
  · exact absurd h.symm hne
  · rfl

/-- A service that counts its requests. -/
def countingService : Service ℕ Unit where
  handle := fun w _ _ _ => some (w + 1, .success)
  background := fun w _ => w

/-- The push of a call is executed, its reply is lost, and the push is repeated. -/
def sampleRepeats : List (KbEvent Bool Unit) :=
  [.daemon ⟨true, .ok⟩ 0 true, .client true ⟨true, .ok⟩, .client true ⟨true, .lostReply⟩,
    .client true ⟨true, .ok⟩, .daemon ⟨true, .ok⟩ 0 true, .handler (), .daemon ⟨true, .ok⟩ 0 true,
    .daemon ⟨true, .ok⟩ 0 true, .daemon ⟨true, .ok⟩ 0 true, .handler ()]

/-- The request is served twice. -/
theorem runs_linearizable_sampleRepeats :
    ∃ order : List (Bool × GvmErrCode),
      countingService.Reach 0 2 (order.map fun r => (sampleRequests r.1).served r.2) ∧
        ∀ k, (order.map Prod.fst).count k ≤ 2 := by
  obtain ⟨order, hworld, -, hcount, -⟩ := KbSystem.runs_linearizable Redis
    sampleRequests_injective countingService 0 sampleRepeats
  have hserved : ((KbSystem.init Redis 0).runs countingService sampleRequests
      sampleRepeats).world = 2 := by
    decide +kernel
  rw [hserved] at hworld
  exact ⟨order, hworld, fun k => (hcount k).1⟩

end OpenvasTool
