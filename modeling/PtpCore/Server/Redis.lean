import PtpCore.Lib.Assoc
import PtpCore.Server.ServerLogin

/-!
# A Redis that works

The commands of `ServerLogin` on a database of strings, each of them in one step. A number is stored
as its decimal digits, and `INCR` refuses a value that is not written as it would write it.

Many logins share the database. Each of them is a thread of its own, and `Login` is what one of them
was called with.
-/

namespace PtpCore
namespace Server

open Lib Proto Crypto
open PtpCore.Global

abbrev Redis := Assoc Bytes Bytes

namespace Redis

def intText : Int → Bytes
  | .ofNat n => decimal n
  | .negSucc n => 0x2d :: decimal (n + 1)

/-- `string2ll`: the number that is written so. -/
def textInt (text : Bytes) : Option Int :=
  let n : Int :=
    match text with
    | 0x2d :: digits => - (atoiDigits 0 digits : Nat)
    | digits => (atoiDigits 0 digits : Nat)
  if intText n = text ∧ - 2 ^ 63 ≤ n ∧ n < 2 ^ 63 then some n else none

def incrBy (key : Bytes) (value : Int) (db : Redis) : RedisReply × Redis :=
  match (db.find key).elim (some 0) textInt with
  | none => (.error, db)
  | some n =>
    if - 2 ^ 63 ≤ n + value ∧ n + value < 2 ^ 63 then
      (.integer (n + value), db.set key (intText (n + value)))
    else (.error, db)

def mset : List Bytes → Redis → Redis
  | key :: value :: rest, db => mset rest (db.set key value)
  | _, db => db

def exec (cmd : RedisCmd) (db : Redis) : RedisReply × Redis :=
  match cmd with
  | .get key => ((db.find key).elim .nil .string, db)
  | .incr key => incrBy key 1 db
  | .incrBy key value => incrBy key value db
  | .argv [] => (.error, db)
  | .argv (name :: args) =>
    if name = "MSET".toUTF8.toList then
      if args.length % 2 = 0 then (.status, mset args db) else (.error, db)
    else if name = "MGET".toUTF8.toList then (.array (args.map db.find), db)
    else (.error, db)

end Redis

structure Login where
  now : UInt32
  msg : ServerLoginReq
  /-- What follows the signature in memory. -/
  beyond : Bytes

/-- Who answers the calls of one login among others. There is always a connection. -/
def Login.handler (c : Secp256k1) (login : Login) : Prog.Handler (LoginCall.Answer c) Redis
  | .readSign n, db => some ((login.msg.sign.getD [] ++ 0 :: login.beyond).take n, db)
  | .getCacheConn, db => some (some 0, db)
  | .relCacheConn _, db => some ((), db)
  | .recover sig64 v msgHash, db =>
    if 0 ≤ v ∧ v ≤ 3 then some (c.recover sig64 v msgHash, db) else none
  | .redis cmd, db => some (Redis.exec cmd db)

section

variable {ι : Type} (c : Secp256k1) (logins : ι → Login)

abbrev LoginThreads := Threads (LoginCall.Answer c) ι (Except Fault LoginResult) Redis

/-- All of them are called, and the database is empty. -/
def LoginThreads.start : LoginThreads (ι := ι) c where
  thread i := CInterLoginStrategy.serverLogin c (logins i).now (logins i).msg
  shared := []

/-- One of them makes its next call. -/
def LoginThreads.step [DecidableEq ι] (t : LoginThreads (ι := ι) c) (i : ι) :
    LoginThreads (ι := ι) c :=
  Threads.step (fun i => (logins i).handler c) t i

end

end Server
end PtpCore
