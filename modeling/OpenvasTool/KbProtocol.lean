import OpenvasTool.Redis
import OpenvasTool.RequestIds
import OpenvasTool.Support.Delivery

/-!
# Requests over redis

Any number of calls of `sendKbMsg` and the loop of `startKbMsg`, interleaved round by round, over
any redis server and connections that may break at any time. A client pushes its message to the
queue of the daemon and waits for the list with its id; the daemon pops the messages, calls the
handlers and pushes the return values. The ledger of the queue and the list of the answered messages
only record what happens.
-/

namespace OpenvasTool

open Posix Support RedisServer

/-! ### The client -/

/-- The id and the command of a request, its text, and the parameters that the client accepts. -/
structure KbRequest where
  uuid : UuidSource
  command : PhpCommand
  input : Text
  param : PhpParam
  accepted : command.getParam input = some param

namespace KbRequest

/-- The name of the list in which the answer is expected. -/
@[irreducible] def name (q : KbRequest) : Text := (genUUID q.uuid).text

theorem name_eq (q : KbRequest) : q.name = (genUUID q.uuid).text := by
  unfold name
  rfl

/-- The text that is pushed to the daemon. -/
@[irreducible] def msg (q : KbRequest) : Text := phpMessage (genUUID q.uuid) q.command q.param

theorem msg_eq (q : KbRequest) : q.msg = phpMessage (genUUID q.uuid) q.command q.param := by
  unfold msg
  rfl

end KbRequest

/-- Where a call of `sendKbMsg` is. -/
inductive SendPhase where
  | connect
  | push
  | wait
  | done (ret : ℤ)
  deriving DecidableEq

/-- A call of `sendKbMsg` with its connection. -/
structure SendKbMsg where
  phase : SendPhase
  kb : KbRedis
  deriving DecidableEq

/-- The call has not begun. -/
def SendKbMsg.start : SendKbMsg := ⟨.connect, redisNew⟩

/-- What `sendKbMsg` makes of the reply to `kb_bpop_result`. -/
def sendResult (rep : Option RedisReply) : ℤ :=
  match redisBpopInt rep with
  | (1, some result) => result
  | (0, _) => GvmErrCode.waitTimeout.toInt
  | _ => GvmErrCode.fail.toInt

/-- One round of `sendKbMsg`. -/
def sendKbMsg {ρ : Type*} [RedisServer ρ] (q : KbRequest) (server : ρ) (c : SendKbMsg)
    (a : Attempt) : ρ × SendKbMsg :=
  match c.phase with
  | .connect =>
      (server, if a.connect then ⟨.push, ⟨true, false⟩⟩
        else ⟨.done GvmErrCode.redisConn.toInt, redisNew⟩)
  | .push =>
      let r := c.kb.redisCmd server (.lpush openvasMsgName q.msg) a
      (r.1, match r.2.2 with
        | none => ⟨.push, r.2.1⟩
        | some rep =>
            ⟨if redisPushed rep then .wait else .done GvmErrCode.fail.toInt, r.2.1⟩)
  | .wait =>
      let r := c.kb.redisCmd server (.brpop q.name) a
      (r.1, match r.2.2 with
        | none => ⟨.wait, r.2.1⟩
        | some rep => ⟨.done (sendResult rep), r.2.1⟩)
  | .done _ => (server, c)

/-! ### The daemon -/

/-- What the daemon does for its requests and between them. A handler that is not called yet, since
the work in between goes on, has no result. -/
structure Service (ω η : Type*) where
  handle : ω → η → PhpCommand → Text → Option (ω × GvmErrCode)
  background : ω → η → ω

/-- The handler that `processMsg` calls, and its argument. -/
def handlerCall (input : Text) : Option (PhpCommand × Text) :=
  (processMsgTokens input).bind fun (_, cmd, param) =>
    (gHds.find? fun phd => phd.cmd = cmd.text).map fun phd => (phd, param)

/-- Where the loop of `startKbMsg` is. -/
inductive LoopPhase where
  | clear
  | poll
  | process (inbuf : Text)
  | reply (uuid : Text) (ret : ℤ)
  | expire (uuid : Text)
  deriving DecidableEq

namespace LoopPhase

/-- The message that was popped and is not processed yet. -/
def hand : LoopPhase → List Text
  | process inbuf => [inbuf]
  | _ => []

/-- What comes after the poll of a turn. -/
def afterPoll (gId : ℕ) : RecvKbMsg → LoopPhase
  | .message inbuf => if gId < maxIntervalCnt then .process inbuf else .clear
  | .empty => .poll
  | .connError => .poll

end LoopPhase

/-- The server, the calls, the connection and the loop of the daemon, and what it serves; and the
history of the queue and of the answers. -/
structure KbSystem (ρ ι ω : Type*) where
  server : ρ
  calls : ι → SendKbMsg
  kb : KbRedis
  phase : LoopPhase
  loop : LoopState
  world : ω
  mail : Delivery Text
  answered : List (Text × GvmErrCode)

/-- A round of a client; a round of the daemon, with the result of `processIdle` and `g_isRun` at
the end of its turn; a handler; work in between; the end of a time to live. -/
inductive KbEvent (ι η : Type*) where
  | client (k : ι) (a : Attempt)
  | daemon (a : Attempt) (hasMore : ℤ) (isRun : Bool)
  | handler (e : η)
  | background (e : η)
  | expired (name : Text)

namespace KbSystem

variable {ρ ι ω η : Type*} [RedisServer ρ] [DecidableEq ι]

variable (ρ) in
/-- The daemon starts; nothing has been sent. -/
def init (w : ω) : KbSystem ρ ι ω where
  server := fresh
  calls := fun _ => .start
  kb := redisNew
  phase := .clear
  loop := (startKbMsg true []).2
  world := w
  mail := .empty
  answered := []

/-- A round of the call of a client. -/
def client (q : ι → KbRequest) (s : KbSystem ρ ι ω) (k : ι) (a : Attempt) : KbSystem ρ ι ω :=
  let r := sendKbMsg (q k) s.server (s.calls k) a
  { s with
    server := r.1
    calls := Function.update s.calls k r.2
    mail :=
      if (s.calls k).phase = .push ∧ (s.calls k).kb.executes a then s.mail.send (q k).msg
      else s.mail }

/-- A round of `clearKb`. -/
def clearKb (s : KbSystem ρ ι ω) (a : Attempt) : KbSystem ρ ι ω :=
  let r := s.kb.redisCmd s.server (.del openvasMsgName) a
  { s with
    server := r.1
    kb := r.2.1
    phase := if r.2.2.isSome then .poll else .clear
    mail := if s.kb.executes a then s.mail.clear else s.mail }

/-- A round of `recvKbMsg`, and the decision of the loop about what it found. -/
def recvKbMsg (s : KbSystem ρ ι ω) (a : Attempt) (hasMore : ℤ) (isRun : Bool) : KbSystem ρ ι ω :=
  let r := s.kb.redisCmd s.server (.rpop openvasMsgName) a
  let s' := { s with server := r.1, kb := r.2.1 }
  match r.2.2 with
  | none => { s' with mail := if s.kb.executes a then s.mail.lose else s.mail }
  | some rep =>
      let found := redisPopStr maxCacheSize rep
      let next := LoopPhase.afterPoll s.loop.gId found
      { s' with
        loop := s.loop.loopTurn ⟨found, hasMore, isRun⟩
        phase := next
        mail :=
          if s.kb.executes a then if next.hand = [] then s.mail.lose else s.mail.take
          else s.mail }

/-- A round of the loop of `startKbMsg`, or of a call in it. -/
def daemon (s : KbSystem ρ ι ω) (a : Attempt) (hasMore : ℤ) (isRun : Bool) : KbSystem ρ ι ω :=
  match s.phase with
  | .clear => s.clearKb a
  | .poll =>
      if s.loop.isRun ∧ s.loop.timeout ≤ 0 then s.recvKbMsg a hasMore isRun
      else { s with loop := s.loop.loopTurn ⟨.empty, hasMore, isRun⟩ }
  | .process _ => s
  | .reply uuid ret =>
      let r := s.kb.redisCmd s.server (.lpush uuid (decimal ret)) a
      { s with
        server := r.1
        kb := r.2.1
        phase :=
          match r.2.2 with
          | none => .reply uuid ret
          | some rep => if redisPushed rep then .expire uuid else .poll }
  | .expire uuid =>
      let r := s.kb.redisCmd s.server (.expire uuid) a
      { s with
        server := r.1
        kb := r.2.1
        phase := if r.2.2.isSome then .poll else .expire uuid }

/-- `processMsg` up to its answer, with the state that the handler leaves. -/
def processed (s : KbSystem ρ ι ω) (inbuf : Text) (w : ω) (code : GvmErrCode) : KbSystem ρ ι ω :=
  let r := processMsg (fun _ _ => code) inbuf
  { s with
    world := w
    answered := s.answered ++ [(inbuf, r.1)]
    phase :=
      match r.2 with
      | none => .poll
      | some (uuid, ret) => .reply uuid.text ret.toInt }

/-- The message in hand is processed. -/
def handler (svc : Service ω η) (s : KbSystem ρ ι ω) (e : η) : KbSystem ρ ι ω :=
  match s.phase with
  | .process inbuf =>
      match handlerCall inbuf with
      | none => s.processed inbuf s.world .paramInvalid
      | some (phd, param) =>
          match svc.handle s.world e phd param with
          | none => s
          | some (w, code) => s.processed inbuf w code
  | _ => s

/-- One step of the system. -/
def step (svc : Service ω η) (q : ι → KbRequest) (s : KbSystem ρ ι ω) :
    KbEvent ι η → KbSystem ρ ι ω
  | .client k a => s.client q k a
  | .daemon a hasMore isRun => s.daemon a hasMore isRun
  | .handler e => s.handler svc e
  | .background e => { s with world := svc.background s.world e }
  | .expired name => { s with server := elapse s.server name }

end KbSystem

end OpenvasTool
