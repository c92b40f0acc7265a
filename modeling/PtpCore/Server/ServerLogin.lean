import PtpCore.Lib.Prog
import PtpCore.Server.CachePool
import PtpCore.Server.InterLogin

/-!
# `ServerLogin` call by call (`ptp_server/services/InterLogin.cpp`)

The function once more, now as a program that makes its calls one by one, where
`PtpCore.Server.InterLogin` has their results at hand. The calls are what can go wrong, or what
others can see: reading the bytes of the signature, taking a connection from the pool and giving
it back, `parse_compact` and `recover` of libsecp256k1, and the commands to Redis.
-/

namespace PtpCore
namespace Server

open Lib Proto Crypto
open PtpCore.Global

inductive LoginCall
  /-- That many bytes from `msg->sign().c_str()` on. -/
  | readSign (n : Nat)
  | getCacheConn
  | relCacheConn (conn : CacheConnRef)
  /-- 64 bytes, a recovery id, a hash. -/
  | recover (sig64 : Bytes) (v : Int) (msgHash : Bytes)
  | redis (cmd : RedisCmd)
  deriving DecidableEq, Repr

def LoginCall.Answer (c : Secp256k1) : LoginCall → Type
  | .readSign _ => Bytes
  | .getCacheConn => Option CacheConnRef
  | .relCacheConn _ => Unit
  | .recover _ _ _ => Option c.PubKey
  | .redis _ => RedisReply

/-- What the steps of a login have in common once the signature is accepted. -/
structure LoginOf where
  conn : CacheConnRef
  now : UInt32
  pubKey33 : Bytes
  address : Bytes
  deriving DecidableEq, Repr

/-- The user, from the list that `MGET` filled; `none` when an iterator is moved to its end. -/
def userOfList (o : LoginOf) (userId : UInt32) : List Bytes → Option UserInfo
  | avatar :: nickName :: userName :: signInfo :: firstName :: lastName :: loginTime :: status :: _ =>
    some
      { uid := some userId
        address := some o.address
        pubKey := some o.pubKey33
        avatar := some (cString avatar)
        nickName := some (cString nickName)
        userName := some (cString userName)
        signInfo := some (cString signInfo)
        firstName := some (cString firstName)
        lastName := some (cString lastName)
        loginTime := some (string2int loginTime)
        status := some (if status.isEmpty then 0 else string2int status) }
  | _ => none

/-- The `MSET` that stores a new user. -/
def loginMset (o : LoginOf) (userIdStr : Bytes) : List Bytes :=
  ["MSET".toUTF8.toList,
    cacheUserAdrIdPrefix ++ o.address, userIdStr,
    cacheUserIdPubKeyPrefix ++ userIdStr, bytesToHexString o.pubKey33,
    cacheUserIdAdrPrefix ++ userIdStr, o.address,
    cacheUserIdLoginTimePrefix ++ userIdStr, int2string o.now]

namespace CInterLoginStrategy

section

variable (c : Secp256k1)

abbrev LoginProg := Prog (LoginCall.Answer c) (Except Fault LoginResult)

/-- From the `MGET` on. -/
def readUser (o : LoginOf) (userId : UInt32) (mset : Option (List Bytes)) : LoginProg c :=
  .call (.redis (.argv (loginMget userId))) fun reply =>
    match userOfList o userId (CacheConn.exec reply) with
    | none => .ret (.error .listEnd)
    | some user => .call (.relCacheConn o.conn) fun _ => .ret (.ok ⟨.noError, user, mset⟩)

/-- From the `MSET` on. -/
def storeUser (o : LoginOf) (userIdLong : Int) : LoginProg c :=
  let userIdStr := int2string (UInt32.ofInt userIdLong)
  .call (.redis (.argv (loginMset o userIdStr))) fun _ =>
    readUser c o (string2int userIdStr) (some (loginMset o userIdStr))

/-- From the `INCRBY` on. -/
def raiseUserId (o : LoginOf) : LoginProg c :=
  .call (.redis (.incrBy cacheIncrUserId 99999)) fun reply => storeUser c o (CacheConn.incr reply)

/-- From the `INCR` on. -/
def newUserId (o : LoginOf) : LoginProg c :=
  .call (.redis (.incr cacheIncrUserId)) fun reply =>
    if CacheConn.incr reply = 1 then raiseUserId c o else storeUser c o (CacheConn.incr reply)

/-- From the `GET` on. -/
def findUserId (o : LoginOf) : LoginProg c :=
  .call (.redis (.get (cacheUserAdrIdPrefix ++ o.address))) fun reply =>
    if (CacheConn.get reply).isEmpty then newUserId c o
    else readUser c o (string2int (CacheConn.get reply)) none

/-- What `recover_pub_key_and_address_from_sig` makes of the point. -/
def addressOfPubKey (rawPubkey : c.PubKey) : Bytes :=
  addressToHex (pubKeyToAddress c ((c.serializeUncompressed rawPubkey).drop 1))

/-- After `recover`. -/
def checkAddress (conn : CacheConnRef) (now : UInt32) (msg : ServerLoginReq) :
    Option c.PubKey → LoginProg c
  | none => .ret (.ok ⟨.eLoginError, {}, none⟩)
  | some rawPubkey =>
    if addressOfPubKey c rawPubkey ≠ msg.address.getD [] then .ret (.ok ⟨.eLoginError, {}, none⟩)
    else findUserId c ⟨conn, now, c.serializeCompressed rawPubkey, addressOfPubKey c rawPubkey⟩

/-- From `recover_pub_key_and_address_from_sig` on. -/
def checkSign (conn : CacheConnRef) (now : UInt32) (msg : ServerLoginReq) : LoginProg c :=
  let msgData := formatSignMsgData (msg.captcha.getD []) .ptp
  .call (.readSign 65) fun sig65 =>
    .call (.recover (sig65.take 64) (recoveryId (sig65.getD 64 0)) (c.keccak256 msgData)) fun r =>
      checkAddress c conn now msg r

/-- `ServerLogin`. The signature is printed before anything else happens. -/
def serverLogin (now : UInt32) (msg : ServerLoginReq) : LoginProg c :=
  .call (.readSign 65) fun _ =>
    .call .getCacheConn fun
      | none => .ret (.ok ⟨.eSystem, {}, none⟩)
      | some conn => checkSign c conn now msg

end

end CInterLoginStrategy

/-! ## What one login meets -/

/-- The replies of Redis, one for each command that a login can issue. -/
structure LoginReplies where
  get : RedisReply
  incr : RedisReply
  incrBy : RedisReply
  mset : RedisReply
  mget : RedisReply
  deriving DecidableEq, Repr

def LoginReplies.answer (r : LoginReplies) : RedisCmd → RedisReply
  | .get _ => r.get
  | .incr _ => r.incr
  | .incrBy _ _ => r.incrBy
  | .argv args => if args.head? = some "MSET".toUTF8.toList then r.mset else r.mget

structure LoginEnv where
  /-- What follows the signature in memory. -/
  beyond : Bytes
  /-- `Init` of a new connection succeeds. -/
  initOk : Bool
  replies : LoginReplies

/-- Who answers the calls of a login. libsecp256k1 ends the process when a recovery id is none. -/
def LoginEnv.handler (env : LoginEnv) (c : Secp256k1) (sign : Bytes) :
    Prog.Handler (LoginCall.Answer c) CachePool
  | .readSign n, p => some ((sign ++ 0 :: env.beyond).take n, p)
  | .getCacheConn, p => p.getCacheConn env.initOk
  | .relCacheConn conn, p => some ((), p.relCacheConn conn)
  | .recover sig64 v msgHash, p =>
    if 0 ≤ v ∧ v ≤ 3 then some (c.recover sig64 v msgHash, p) else none
  | .redis cmd, p => some (env.replies.answer cmd, p)

section

variable (c : Secp256k1) (env : LoginEnv) (now : UInt32) (msg : ServerLoginReq) (p : CachePool)

/-- One call of `ServerLogin`: what it returns, and the pool after it. -/
def LoginEnv.run : Option (Except Fault LoginResult × CachePool) :=
  (CInterLoginStrategy.serverLogin c now msg).run (env.handler c (msg.sign.getD [])) p

/-- The calls that it makes. -/
def LoginEnv.calls : List LoginCall :=
  (CInterLoginStrategy.serverLogin c now msg).calls (env.handler c (msg.sign.getD [])) p

end

end Server
end PtpCore
