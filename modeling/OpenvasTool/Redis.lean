import OpenvasTool.MessageLoop
import OpenvasTool.Client

/-!
# The redis connection

The redis server that client and daemon share, and the functions `redis_*` of `base_openvas.c`. The
server is a parameter with what its documentation promises, and `Redis` is the server that does
nothing else. A command is tried again once when the connection breaks, and it may have been
executed although its reply was lost, so the loop of `redis_cmd` is taken round by round.
-/

namespace OpenvasTool

open Posix

/-! ### The server -/

/-- The commands that are sent to redis. -/
inductive RedisCmd where
  | lpush (name value : Text)
  | rpop (name : Text)
  | brpop (name : Text)
  | expire (name : Text)
  | del (name : Text)
  deriving DecidableEq

/-- The list that a command is about. -/
def RedisCmd.name : RedisCmd → Text
  | lpush name _ => name
  | rpop name => name
  | brpop name => name
  | expire name => name
  | del name => name

/-- The replies by their types. -/
inductive RedisReply where
  | error
  | integer (n : ℕ)
  | nil
  | string (str : Text)
  | array (element : List Text)
  deriving DecidableEq

/-- A redis server as its documentation describes it for these commands: the lists by their names,
oldest element first, the names with a time to live, and the replies that the program reads. -/
class RedisServer (ρ : Type*) where
  /-- Nothing is stored. -/
  fresh : ρ
  elems : ρ → Text → List Text
  hasTtl : ρ → Text → Bool
  /-- A command is executed; a blocked `BRPOP` when an element is there or its time is over. -/
  execute : ρ → RedisCmd → ρ × RedisReply
  /-- The time to live of a name is over, if it has one. -/
  elapse : ρ → Text → ρ
  elems_fresh : ∀ name, elems fresh name = []
  hasTtl_fresh : ∀ name, hasTtl fresh name = false
  -- elements are added at the other end than the one where they are taken
  elems_lpush : ∀ r name value,
    elems (execute r (.lpush name value)).1 name = elems r name ++ [value]
  elems_rpop : ∀ r name, elems (execute r (.rpop name)).1 name = (elems r name).tail
  elems_brpop : ∀ r name, elems (execute r (.brpop name)).1 name = (elems r name).tail
  elems_expire : ∀ r name, elems (execute r (.expire name)).1 name = elems r name
  elems_del : ∀ r name, elems (execute r (.del name)).1 name = []
  elems_execute_of_ne : ∀ r cmd name, name ≠ cmd.name →
    elems (execute r cmd).1 name = elems r name
  reply_lpush : ∀ r name value,
    (execute r (.lpush name value)).2 = .integer ((elems r name).length + 1)
  reply_rpop : ∀ r name, (execute r (.rpop name)).2 = (elems r name).head?.elim .nil .string
  reply_brpop : ∀ r name, (execute r (.brpop name)).2 =
    (elems r name).head?.elim .nil fun value => .array [name, value]
  -- only `EXPIRE` gives a time to live, and only names with one can go
  hasTtl_execute : ∀ r cmd name, hasTtl (execute r cmd).1 name = true →
    hasTtl r name = true ∨ cmd = .expire name
  hasTtl_elapse : ∀ r name' name, hasTtl (elapse r name') name = true → hasTtl r name = true
  elems_elapse : ∀ r name' name,
    elems (elapse r name') name = elems r name ∨
      hasTtl r name = true ∧ elems (elapse r name') name = []

namespace RedisServer

variable {ρ : Type*} [RedisServer ρ] {r : ρ} {name name' value : Text} {cmd : RedisCmd}

attribute [simp] elems_fresh hasTtl_fresh elems_lpush elems_rpop elems_brpop elems_expire elems_del
  reply_lpush

/-- Only a push brings in an element. -/
theorem mem_elems_execute (h : value ∈ elems (execute r cmd).1 name) :
    value ∈ elems r name ∨ cmd = .lpush name value := by
  by_cases hname : name = cmd.name
  swap
  · rw [elems_execute_of_ne r cmd name hname] at h
    exact Or.inl h
  subst hname
  cases cmd with
  | lpush name value' => simpa [RedisCmd.name, eq_comm] using h
  | rpop name => exact Or.inl (List.mem_of_mem_tail (by simpa [RedisCmd.name] using h))
  | brpop name => exact Or.inl (List.mem_of_mem_tail (by simpa [RedisCmd.name] using h))
  | expire name => exact Or.inl (by simpa [RedisCmd.name] using h)
  | del name => simp [RedisCmd.name] at h

/-- A time to live leaves every list alone. -/
theorem elems_execute_expire (r : ρ) (name name' : Text) :
    elems (execute r (.expire name)).1 name' = elems r name' := by
  by_cases hname : name' = name
  · rw [hname]
    exact elems_expire r name
  · exact elems_execute_of_ne r (.expire name) name' hname

theorem mem_elems_elapse (h : value ∈ elems (elapse r name') name) : value ∈ elems r name := by
  rcases elems_elapse r name' name with heq | ⟨-, hnil⟩
  · rwa [heq] at h
  · rw [hnil] at h
    simp at h

/-- A name without a time to live stays. -/
theorem elems_elapse_of_hasTtl (h : hasTtl r name = false) :
    elems (elapse r name') name = elems r name :=
  (elems_elapse r name' name).resolve_right fun hgone => by simp [h] at hgone

end RedisServer

/-- The lists by their names, oldest element first, and the names with a time to live. A name
without elements does not exist. -/
structure Redis where
  lists : Text → List Text
  ttl : Text → Bool

namespace Redis

/-- Nothing is stored. -/
def empty : Redis := ⟨fun _ => [], fun _ => false⟩

/-- A list changes; with its last element the name goes. -/
def setList (r : Redis) (name : Text) (elems : List Text) : Redis where
  lists := Function.update r.lists name elems
  ttl := Function.update r.ttl name (r.ttl name && !elems.isEmpty)

/-- A command is executed. `LPUSH` adds at the other end than the one where `RPOP` takes; a blocked
`BRPOP` is executed when an element is there or its time is over. -/
def exec (r : Redis) : RedisCmd → Redis × RedisReply
  | .lpush name value =>
      (r.setList name (r.lists name ++ [value]), .integer ((r.lists name).length + 1))
  | .rpop name =>
      match r.lists name with
      | [] => (r, .nil)
      | value :: elems => (r.setList name elems, .string value)
  | .brpop name =>
      match r.lists name with
      | [] => (r, .nil)
      | value :: elems => (r.setList name elems, .array [name, value])
  | .expire name =>
      if r.lists name = [] then (r, .integer 0)
      else ({ r with ttl := Function.update r.ttl name true }, .integer 1)
  | .del name => (r.setList name [], .integer (if r.lists name = [] then 0 else 1))

/-- The time to live of a name is over. -/
def expired (r : Redis) (name : Text) : Redis := if r.ttl name then r.setList name [] else r

variable {r : Redis} {name name' value : Text} {cmd : RedisCmd}

@[simp] theorem lists_setList_self (elems : List Text) :
    (r.setList name elems).lists name = elems := Function.update_self ..

theorem lists_setList_of_ne (elems : List Text) (h : name' ≠ name) :
    (r.setList name elems).lists name' = r.lists name' := Function.update_of_ne h ..

theorem ttl_setList {elems : List Text} (h : (r.setList name elems).ttl name' = true) :
    r.ttl name' = true := by
  unfold setList at h
  dsimp only at h
  by_cases hname : name' = name
  · subst hname
    rw [Function.update_self, Bool.and_eq_true] at h
    exact h.1
  · rwa [Function.update_of_ne hname] at h

/-- What a command can do: nothing, a new content of its list, or a time to live. -/
theorem exec_cases (r : Redis) (cmd : RedisCmd) :
    (r.exec cmd).1 = r ∨ (∃ elems, (r.exec cmd).1 = r.setList cmd.name elems) ∨
      cmd = .expire cmd.name ∧
        (r.exec cmd).1 = { r with ttl := Function.update r.ttl cmd.name true } := by
  cases cmd with
  | lpush name value => exact Or.inr (Or.inl ⟨_, rfl⟩)
  | rpop name =>
    cases hlist : r.lists name with
    | nil => exact Or.inl (by simp [exec, hlist])
    | cons value elems => exact Or.inr (Or.inl ⟨elems, by simp [exec, hlist, RedisCmd.name]⟩)
  | brpop name =>
    cases hlist : r.lists name with
    | nil => exact Or.inl (by simp [exec, hlist])
    | cons value elems => exact Or.inr (Or.inl ⟨elems, by simp [exec, hlist, RedisCmd.name]⟩)
  | expire name =>
    by_cases hlist : r.lists name = []
    · exact Or.inl (by simp [exec, hlist])
    · exact Or.inr (Or.inr ⟨rfl, by simp [exec, hlist, RedisCmd.name]⟩)
  | del name => exact Or.inr (Or.inl ⟨[], rfl⟩)

/-- A command leaves the other lists alone. -/
theorem lists_exec_of_ne (h : name' ≠ cmd.name) : (r.exec cmd).1.lists name' = r.lists name' := by
  obtain heq | ⟨elems, heq⟩ | ⟨-, heq⟩ := exec_cases r cmd
  · rw [heq]
  · rw [heq, lists_setList_of_ne _ h]
  · rw [heq]

/-- Only one command gives a time to live. -/
theorem ttl_exec (h : (r.exec cmd).1.ttl name = true) :
    r.ttl name = true ∨ cmd = .expire name := by
  obtain heq | ⟨elems, heq⟩ | ⟨hcmd, heq⟩ := exec_cases r cmd
  · exact Or.inl (heq ▸ h)
  · rw [heq] at h
    exact Or.inl (ttl_setList h)
  · rw [heq] at h
    by_cases hname : name = cmd.name
    · exact Or.inr (hname ▸ hcmd)
    · dsimp only at h
      rw [Function.update_of_ne hname] at h
      exact Or.inl h

theorem ttl_expired (h : (r.expired name').ttl name = true) : r.ttl name = true := by
  unfold expired at h
  split at h
  · exact ttl_setList h
  · exact h

theorem lists_expired : (r.expired name').lists name = r.lists name ∨
    r.ttl name = true ∧ (r.expired name').lists name = [] := by
  unfold expired
  split
  · rename_i hbit
    by_cases hname : name = name'
    · subst hname
      exact Or.inr ⟨hbit, lists_setList_self _⟩
    · exact Or.inl (lists_setList_of_ne _ hname)
  · exact Or.inl rfl

/-- The server that does what is documented and no more. -/
instance : RedisServer Redis where
  fresh := empty
  elems := lists
  hasTtl := ttl
  execute := exec
  elapse := expired
  elems_fresh _ := rfl
  hasTtl_fresh _ := rfl
  elems_lpush _ _ _ := lists_setList_self _
  elems_rpop r name := by cases hlist : r.lists name <;> simp [exec, hlist]
  elems_brpop r name := by cases hlist : r.lists name <;> simp [exec, hlist]
  elems_expire r name := by by_cases hlist : r.lists name = [] <;> simp [exec, hlist]
  elems_del _ _ := lists_setList_self _
  elems_execute_of_ne _ _ _ h := lists_exec_of_ne h
  reply_lpush _ _ _ := rfl
  reply_rpop r name := by cases hlist : r.lists name <;> simp [exec, hlist]
  reply_brpop r name := by cases hlist : r.lists name <;> simp [exec, hlist]
  hasTtl_execute _ _ _ h := ttl_exec h
  hasTtl_elapse _ _ _ h := ttl_expired h
  elems_elapse _ _ _ := lists_expired

end Redis

/-! ### Commands -/

/-- How the exchange of a command with the server ends: with the reply, with an error reply of a
server that did not execute it, or with a broken connection before or after the execution. -/
inductive Exchange where
  | ok | refused | lostRequest | lostReply
  deriving DecidableEq, Repr

/-- The command was executed. -/
def Exchange.executed : Exchange → Bool
  | ok => true
  | refused => false
  | lostRequest => false
  | lostReply => true

/-- What one round of `redis_cmd` meets: whether `get_redis_ctx` can connect and its ping is
answered, when there is no connection, and how the exchange ends. -/
structure Attempt where
  connect : Bool
  exchange : Exchange
  deriving DecidableEq

/-- `struct kb_redis`, and the variable `retry` of a call of `redis_cmd` that is executing. -/
structure KbRedis where
  rctx : Bool
  retry : Bool
  deriving DecidableEq

/-- `redis_new`: the connection is made by the first command. -/
def redisNew : KbRedis := ⟨false, false⟩

open RedisServer

namespace KbRedis

variable {ρ : Type*} [RedisServer ρ] {kb : KbRedis} {server : ρ} {cmd : RedisCmd} {a : Attempt}

/-- There is a context after `get_redis_ctx`. -/
def getRedisCtx (kb : KbRedis) (a : Attempt) : Bool := kb.rctx || a.connect

/-- One round of the loop of `redis_cmd`: the server, the connection, and what the call returns
unless it goes on with another round. -/
def redisCmd (kb : KbRedis) (server : ρ) (cmd : RedisCmd) (a : Attempt) :
    ρ × KbRedis × Option (Option RedisReply) :=
  if kb.getRedisCtx a then
    let server' := if a.exchange.executed then (execute server cmd).1 else server
    match a.exchange with
    | .ok => (server', ⟨true, false⟩, some (some (execute server cmd).2))
    | .refused => (server', ⟨true, false⟩, some (some .error))
    -- `redis_lnk_reset`, and one more round unless this was it
    | _ => (server', ⟨false, !kb.retry⟩, if kb.retry then some none else none)
  else (server, ⟨false, false⟩, some none)

/-- The round reaches the server and the command is executed. -/
def executes (kb : KbRedis) (a : Attempt) : Bool := kb.getRedisCtx a && a.exchange.executed

theorem redisCmd_server :
    (kb.redisCmd server cmd a).1 = if kb.executes a then (execute server cmd).1 else server := by
  unfold redisCmd executes
  cases kb.getRedisCtx a with
  | false => rfl
  | true => cases a.exchange <;> rfl

theorem elems_redisCmd_of_ne {name : Text} (h : name ≠ cmd.name) :
    elems (kb.redisCmd server cmd a).1 name = elems server name := by
  rw [redisCmd_server]
  split
  · exact elems_execute_of_ne server cmd name h
  · rfl

theorem mem_elems_redisCmd {name value : Text}
    (h : value ∈ elems (kb.redisCmd server cmd a).1 name) :
    value ∈ elems server name ∨ cmd = .lpush name value := by
  rw [redisCmd_server] at h
  split at h
  · exact mem_elems_execute h
  · exact Or.inl h

theorem hasTtl_redisCmd {name : Text} (h : hasTtl (kb.redisCmd server cmd a).1 name = true) :
    hasTtl server name = true ∨ cmd = .expire name := by
  rw [redisCmd_server] at h
  split at h
  · exact hasTtl_execute server cmd name h
  · exact Or.inl h

theorem hasTtl_redisCmd_eq_false {name : Text} (h : hasTtl server name = false)
    (hcmd : cmd ≠ .expire name) : hasTtl (kb.redisCmd server cmd a).1 name = false := by
  rw [Bool.eq_false_iff] at h ⊢
  exact fun hnew => (hasTtl_redisCmd hnew).elim h hcmd

/-- A round that does not return lost the connection, and the next one is the last. -/
theorem redisCmd_again (h : (kb.redisCmd server cmd a).2.2 = none) :
    kb.retry = false ∧ (kb.redisCmd server cmd a).2.1 = ⟨false, true⟩ ∧
      (kb.executes a = true → a.exchange = .lostReply) := by
  unfold redisCmd at h ⊢
  unfold executes
  cases hctx : kb.getRedisCtx a with
  | false => simp [hctx] at h
  | true =>
    cases hexchange : a.exchange <;> cases hretry : kb.retry <;>
      simp_all [Exchange.executed]

/-- The reply of a call that returned one. -/
theorem redisCmd_reply {rep : RedisReply}
    (h : (kb.redisCmd server cmd a).2.2 = some (some rep)) :
    rep = .error ∨ kb.executes a = true ∧ rep = (execute server cmd).2 := by
  unfold redisCmd at h
  unfold executes
  cases hctx : kb.getRedisCtx a with
  | false => simp [hctx] at h
  | true =>
    cases hexchange : a.exchange <;> cases hretry : kb.retry <;>
      simp_all [Exchange.executed]

end KbRedis

/-! ### Replies -/

/-- `redis_push_str` and `redis_expire`, from the reply. -/
def redisPushed : Option RedisReply → Bool
  | none => false
  | some .error => false
  | some _ => true

/-- The copy of a popped text to a buffer of this capacity. -/
def popped (capacity : ℕ) (str : Text) : RecvKbMsg :=
  if str = [] then .empty else if str.length ≤ capacity then .message str else .connError

/-- `redis_pop_str`, from the reply. -/
def redisPopStr (capacity : ℕ) : Option RedisReply → RecvKbMsg
  | none => .connError
  | some (.string str) => popped capacity str
  | some _ => .empty

/-- `redis_bpop_str`, from the reply. -/
def redisBpopStr (capacity : ℕ) : Option RedisReply → RecvKbMsg
  | none => .connError
  | some (.array [_, str]) => popped capacity str
  | some _ => .empty

/-- `redis_bpop_int`, from the reply: the return value, with the integer behind a 1. -/
def redisBpopInt (rep : Option RedisReply) : ℤ × Option ℤ :=
  match redisBpopStr (maxCommMinSize - 1) rep with
  | .connError => (-1, none)
  | .empty => (0, none)
  | .message [] => (-1, none)
  | .message (c :: buf) =>
      if (c.isDigit || c == '-') && buf.all Char.isDigit then (1, some (atoi (c :: buf)))
      else (-1, none)

/-- The text of a return value is read back. -/
theorem redisBpopInt_decimal (code : GvmErrCode) (name : Text) :
    redisBpopInt (some (.array [name, decimal code.toInt])) = (1, some code.toInt) := by
  cases code <;> rfl

end OpenvasTool
