import PtpCore.Server.CachePool

/-!
# One connection to Redis (`CacheConn`, `ptp_server/CachePool.cpp`)

Every member function begins with `Init`, which connects when there is no context and does nothing
when there is one. The commands then differ in what they send and in what they make of the reply;
when there is no reply they free the context, and all but `isExists` also forget it.

`log` is no part of the program. It records what was done with which context. Contexts are numbered
in the order in which they are made, so that no number is used twice.
-/

namespace PtpCore
namespace Server

open Lib

/-- A `redisReply`. -/
inductive Reply
  | status (str : Bytes)
  | error (str : Bytes)
  | nil
  | string (str : Bytes)
  | integer (n : Int)
  | array (elements : List (Option Bytes))
  deriving DecidableEq, Repr

namespace Reply

/-- `reply->integer`. -/
def integerOf : Reply → Int
  | .integer n => n
  | _ => 0

/-- `reply->str` with `reply->len`. -/
def strOf : Reply → Bytes
  | .status str => str
  | .error str => str
  | .string str => str
  | _ => []

/-- A string reply; any other leaves the value empty. -/
def stringOf : Reply → Bytes
  | .string str => str
  | _ => []

/-- The elements of an array as strings. -/
def elementsOf : Reply → List Bytes
  | .array elements => elements.map (·.getD [])
  | _ => []

/-- What `AUTH` and `SELECT` are expected to answer. -/
def isOk : Option Reply → Bool
  | some (.status str) => str.take 2 = "OK".toUTF8.toList
  | _ => false

/-- As the login knows it. -/
def toRedisReply : Option Reply → RedisReply
  | none => .null
  | some (.status _) => .status
  | some (.error _) => .error
  | some .nil => .nil
  | some (.string str) => .string str
  | some (.integer n) => .integer n
  | some (.array elements) => .array elements

end Reply

/-! ## What is called, and what is sent -/

/-- The member functions of `CacheConn`, but for `Init`. -/
inductive CacheCall
  | get (key : Bytes)
  | setex (key : Bytes) (timeout : Int) (value : Bytes)
  | set (key value : Bytes)
  | mget (keys : List Bytes)
  | isExists (key : Bytes)
  | hdel (key field : Bytes)
  | hget (key field : Bytes)
  | hgetAll (key : Bytes)
  | hset (key field value : Bytes)
  | hincrBy (key field : Bytes) (value : Int)
  | incrBy (key : Bytes) (value : Int)
  | hmset (key : Bytes) (hash : List (Bytes × Bytes))
  | hmget (key : Bytes) (fields : List Bytes)
  | exec (argvList : List Bytes)
  | cmd (cmdName key : Bytes) (argvList : Option (List Bytes))
  | incr (key : Bytes)
  | decr (key : Bytes)
  | lpush (key value : Bytes)
  | rpush (key value : Bytes)
  | llen (key : Bytes)
  | lrange (key : Bytes) (start stop : Int)
  deriving DecidableEq, Repr

inductive CommandArg
  | str (s : Bytes)
  | long (n : Int)
  deriving DecidableEq, Repr

/-- A call of hiredis: `redisCommand` with its format, or `redisCommandArgv`. -/
inductive HiredisCmd
  | command (format : Bytes) (args : List CommandArg)
  | commandArgv (args : List Bytes)
  deriving DecidableEq, Repr

/-- `redisCommand`, given strings as `c_str`. -/
def redisCommand (format : String) (args : List CommandArg) : HiredisCmd :=
  .command format.toUTF8.toList (args.map fun
    | .str s => .str (cString s)
    | .long n => .long n)

/-- `redisCommandArgv` without lengths. -/
def redisCommandArgv (args : List Bytes) : HiredisCmd := .commandArgv (args.map cString)

namespace CacheCall

/-- What a function sends after `Init`, if it sends anything. `mget` takes its keys for a format. -/
def cmdOf : CacheCall → Option HiredisCmd
  | .get key => some (redisCommand "GET %s" [.str key])
  | .setex key timeout value =>
    some (redisCommand "SETEX %s %d %s" [.str key, .long timeout, .str value])
  | .set key value => some (redisCommand "SET %s %s" [.str key, .str value])
  | .mget keys =>
    let strKey := [0x20].intercalate keys
    if strKey.isEmpty then none
    else some (.command (cString ("MGET ".toUTF8.toList ++ strKey)) [])
  | .isExists key => some (redisCommand "EXISTS %s" [.str key])
  | .hdel key field => some (redisCommand "HDEL %s %s" [.str key, .str field])
  | .hget key field => some (redisCommand "HGET %s %s" [.str key, .str field])
  | .hgetAll key => some (redisCommand "HGETALL %s" [.str key])
  | .hset key field value =>
    some (redisCommand "HSET %s %s %s" [.str key, .str field, .str value])
  | .hincrBy key field value =>
    some (redisCommand "HINCRBY %s %s %ld" [.str key, .str field, .long value])
  | .incrBy key value => some (redisCommand "INCRBY %s %ld" [.str key, .long value])
  | .hmset key hash =>
    some (redisCommandArgv ("HMSET".toUTF8.toList :: key :: hash.flatMap fun p => [p.1, p.2]))
  | .hmget key fields => some (redisCommandArgv ("HMGET".toUTF8.toList :: key :: fields))
  | .exec argvList => if argvList.isEmpty then none else some (redisCommandArgv argvList)
  | .cmd cmdName key argvList => some (redisCommandArgv (cmdName :: key :: argvList.getD []))
  | .incr key => some (redisCommand "INCR %s" [.str key])
  | .decr key => some (redisCommand "DECR %s" [.str key])
  | .lpush key value => some (redisCommand "LPUSH %s %s" [.str key, .str value])
  | .rpush key value => some (redisCommand "RPUSH %s %s" [.str key, .str value])
  | .llen key => some (redisCommand "LLEN %s" [.str key])
  | .lrange key start stop =>
    some (redisCommand "LRANGE %s %d %d" [.str key, .long start, .long stop])

end CacheCall

/-- What a member function returns, with what it puts into the list or the map of its caller. -/
inductive CacheResult
  | string (value : Bytes)
  | long (value : Int)
  | bool (value : Bool) (filled : List Bytes)
  | boolMap (value : Bool) (filled : List (Bytes × Bytes))
  deriving DecidableEq, Repr

/-- The pairs of `HGETALL`. -/
def pairsOf : List Bytes → List (Bytes × Bytes)
  | field :: value :: rest => (field, value) :: pairsOf rest
  | _ => []

namespace CacheCall

/-- Without a context, without a command, or without a reply. -/
def failed : CacheCall → CacheResult
  | .get _ | .setex _ _ _ | .set _ _ | .hget _ _ | .hmset _ _ => .string []
  | .mget _ | .hgetAll _ => .boolMap false []
  | .isExists _ | .hmget _ _ | .exec _ | .cmd _ _ _ | .lrange _ _ _ => .bool false []
  | .hdel _ _ => .long 0
  | .hset _ _ _ | .hincrBy _ _ _ | .incrBy _ _ | .incr _ | .decr _ | .lpush _ _ | .rpush _ _
  | .llen _ => .long (-1)

def answer (reply : Reply) : CacheCall → CacheResult
  | .get _ | .hget _ _ => .string reply.stringOf
  | .setex _ _ _ | .set _ _ | .hmset _ _ => .string reply.strOf
  | .mget keys =>
    match reply with
    | .array elements =>
      .boolMap true ((keys.zip elements).filterMap fun p => p.2.map fun value => (p.1, value))
    | _ => .boolMap true []
  | .hgetAll _ =>
    .boolMap true (if reply.elementsOf.length % 2 = 0 then pairsOf reply.elementsOf else [])
  | .isExists _ => .bool (reply.integerOf ≠ 0) []
  | .hmget _ _ | .exec _ | .cmd _ _ _ | .lrange _ _ _ => .bool true reply.elementsOf
  | .hdel _ _ | .hset _ _ _ | .hincrBy _ _ _ | .incrBy _ _ | .incr _ | .decr _ | .lpush _ _
  | .rpush _ _ | .llen _ => .long reply.integerOf

end CacheCall

/-! ## The connection -/

/-- A pointer to a `redisContext`. -/
abbrev ContextRef := Nat

inductive ContextEvent
  | auth (context : ContextRef) (ok : Bool)
  | select (context : ContextRef) (dbNum : Int) (ok : Bool)
  | command (context : ContextRef) (cmd : HiredisCmd)
  | free (context : ContextRef)
  deriving DecidableEq, Repr

structure CacheConn where
  context : Option ContextRef
  lastConnectTime : UInt64
  nextContext : ContextRef
  log : List ContextEvent
  deriving DecidableEq, Repr

/-- What `redisConnectWithTimeout` returns: a null pointer, a context with an error, or one that is
    connected. -/
inductive Connected
  | null
  | err
  | ok
  deriving DecidableEq, Repr

/-- What one call meets: the time, and the answers of hiredis. -/
structure CacheEnv where
  now : UInt64
  connect : Connected
  auth : Option Reply
  select : Option Reply
  reply : Option Reply
  deriving DecidableEq, Repr

namespace CacheConn

def new : CacheConn := ⟨none, 0, 0, []⟩

def record (conn : CacheConn) (e : ContextEvent) : CacheConn :=
  { conn with log := conn.log ++ [e] }

def setTime (conn : CacheConn) (now : UInt64) : CacheConn := { conn with lastConnectTime := now }

/-- A context that is made, and where it is kept. -/
def newContext (conn : CacheConn) : CacheConn :=
  { conn with context := some conn.nextContext, nextContext := conn.nextContext + 1 }

/-- `m_pContext = NULL`. -/
def forget (conn : CacheConn) : CacheConn := { conn with context := none }

/-- `AUTH` and `SELECT` on a context that was just made. -/
def login (dbNum : Int) (env : CacheEnv) (context : ContextRef) (conn : CacheConn) :
    Nat × CacheConn :=
  let conn := conn.record (.auth context (Reply.isOk env.auth))
  if Reply.isOk env.auth then
    let conn := conn.record (.select context dbNum (Reply.isOk env.select))
    if Reply.isOk env.select then (0, conn) else (2, conn)
  else (2, conn)

/-- `Init`, in a pool for the database `dbNum`. -/
def init (dbNum : Int) (env : CacheEnv) (conn : CacheConn) : Nat × CacheConn :=
  match conn.context with
  | some _ => (0, conn)
  | none =>
    if env.now < conn.lastConnectTime + 4 then (1, conn)
    else
      let conn := conn.setTime env.now
      match env.connect with
      | .null => (1, conn)
      | .err => (1, (conn.newContext.record (.free conn.nextContext)).forget)
      | .ok => conn.newContext.login dbNum env conn.nextContext

/-- There was no reply: the context is freed and, but for `isExists`, forgotten. -/
def lost (conn : CacheConn) (context : ContextRef) : CacheCall → CacheConn
  | .isExists _ => conn.record (.free context)
  | _ => (conn.record (.free context)).forget

/-- A member function once `Init` has answered 0. -/
def send (env : CacheEnv) (call : CacheCall) (context : ContextRef) (conn : CacheConn) :
    CacheResult × CacheConn :=
  match call.cmdOf with
  | none => (call.failed, conn)
  | some cmd =>
    let conn := conn.record (.command context cmd)
    match env.reply with
    | none => (call.failed, conn.lost context call)
    | some reply => (call.answer reply, conn)

/-- A member function. -/
def run (dbNum : Int) (env : CacheEnv) (call : CacheCall) (conn : CacheConn) :
    CacheResult × CacheConn :=
  let (ret, conn) := conn.init dbNum env
  if ret ≠ 0 then (call.failed, conn)
  else
    match conn.context with
    | none => (call.failed, conn)
    | some context => conn.send env call context

/-- One call in a run of calls. -/
def step (dbNum : Int) (conn : CacheConn) (e : CacheCall × CacheEnv) : CacheConn :=
  (conn.run dbNum e.2 e.1).2

end CacheConn

end Server
end PtpCore
