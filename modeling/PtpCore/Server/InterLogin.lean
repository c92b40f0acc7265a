import PtpCore.Crypto.Secp256k1
import PtpCore.Global.ByteStream
import PtpCore.Proto.Messages

/-!
# `CInterLoginStrategy` (`ptp_server/services/InterLogin.cpp`)

`ServerLogin` recovers the address from the signature over the captcha, compares it with the
address in the request, and finds or allocates the user id in Redis. The signature is read as 65
bytes from the start of a string of any length.
-/

namespace PtpCore
namespace Server

open Lib Proto Crypto
open PtpCore.Global

/-- How a handler can fail to return. -/
inductive Fault
  /-- A `CPduException`, which the receive loop catches. -/
  | threw (e : CPduException)
  /-- An `invalid_argument`, which nothing catches. -/
  | invalidArgument
  /-- A null connection was dereferenced. -/
  | nullConn
  /-- `*it` at the end of a list. -/
  | listEnd
  /-- Handlers passed the request on without end. -/
  | endless
  deriving DecidableEq, Repr

/-- What the cache answers during one call: to `GetCacheConn("auth")`, `GET`, `INCR`, `INCRBY`
    and `MGET`. A command that failed has an answer too. -/
structure Cache where
  available : Bool
  get : Bytes → Bytes
  incr : Bytes → Int
  incrBy : Bytes → Int → Int
  exec : List Bytes → List Bytes

/-- `CACHE_USER_ADR_ID_PREFIX` and the other keys. -/
def cacheUserAdrIdPrefix : Bytes := "user_adr_id_prefix:".toUTF8.toList

def cacheIncrUserId : Bytes := "user_id_incr:".toUTF8.toList

def cacheUserIdPubKeyPrefix : Bytes := "user_id_pub_key_prefix:".toUTF8.toList

def cacheUserIdAdrPrefix : Bytes := "user_id_adr_prefix:".toUTF8.toList

def cacheUserIdAvatarPrefix : Bytes := "user_id_avatar_prefix:".toUTF8.toList

def cacheUserIdNicknamePrefix : Bytes := "user_id_nickname_prefix:".toUTF8.toList

def cacheUserIdUsernamePrefix : Bytes := "user_id_username_prefix:".toUTF8.toList

def cacheUserIdSignInfoPrefix : Bytes := "user_id_sign_info_prefix:".toUTF8.toList

def cacheUserIdFirstNamePrefix : Bytes := "user_id_first_name_prefix:".toUTF8.toList

def cacheUserIdLastNamePrefix : Bytes := "user_id_last_name_prefix:".toUTF8.toList

def cacheUserIdStatusPrefix : Bytes := "user_id_status_prefix:".toUTF8.toList

def cacheUserIdLoginTimePrefix : Bytes := "user_id_login_time_prefix:".toUTF8.toList

/-- The user id: a stored one, or a new one and the `MSET` that stores it. -/
def loginUserId (cache : Cache) (now : UInt32) (pubKey33 address : Bytes) :
    UInt32 × Option (List Bytes) :=
  let userIdStr := cache.get (cacheUserAdrIdPrefix ++ address)
  if userIdStr.isEmpty then
    let userIdLong := cache.incr cacheIncrUserId
    let userIdLong := if userIdLong = 1 then cache.incrBy cacheIncrUserId 99999 else userIdLong
    let userIdStr := int2string (UInt32.ofInt userIdLong)
    (string2int userIdStr,
      some ["MSET".toUTF8.toList,
        cacheUserAdrIdPrefix ++ address, userIdStr,
        cacheUserIdPubKeyPrefix ++ userIdStr, bytesToHexString pubKey33,
        cacheUserIdAdrPrefix ++ userIdStr, address,
        cacheUserIdLoginTimePrefix ++ userIdStr, int2string now])
  else (string2int userIdStr, none)

/-- The `MGET` of the rest of the user. -/
def loginMget (userId : UInt32) : List Bytes :=
  let userIdStr := int2string userId
  ["MGET".toUTF8.toList,
    cacheUserIdAvatarPrefix ++ userIdStr, cacheUserIdNicknamePrefix ++ userIdStr,
    cacheUserIdUsernamePrefix ++ userIdStr, cacheUserIdSignInfoPrefix ++ userIdStr,
    cacheUserIdFirstNamePrefix ++ userIdStr, cacheUserIdLastNamePrefix ++ userIdStr,
    cacheUserIdLoginTimePrefix ++ userIdStr, cacheUserIdStatusPrefix ++ userIdStr]

/-- The error, the user as far as it was filled in, and the `MSET` if there was one. -/
structure LoginResult where
  error : ERR
  user : UserInfo
  mset : Option (List Bytes)
  deriving DecidableEq, Repr

/-- The 65 bytes at `sign().c_str()`: a terminating zero and other memory follow a short string. -/
def signAt (sign beyond : Bytes) : Bytes := (sign ++ 0 :: beyond).take 65

/-- `ServerLogin`. `pUser` is an empty message, as `ServerLoginReq` passes it. -/
def serverLogin (c : Secp256k1) (cache : Cache) (beyond : Bytes) (now : UInt32)
    (msg : ServerLoginReq) : Except Fault LoginResult :=
  if cache.available then
    let msgData := formatSignMsgData (msg.captcha.getD []) .ptp
    match recoverPubKeyAndAddressFromSig c (signAt (msg.sign.getD []) beyond) msgData with
    | none => .ok ⟨.eLoginError, {}, none⟩
    | some (pubKey33, address) =>
      if address ≠ msg.address.getD [] then .ok ⟨.eLoginError, {}, none⟩
      else
        let (userId, mset) := loginUserId cache now pubKey33 address
        match cache.exec (loginMget userId) with
        | avatar :: nickName :: userName :: signInfo :: firstName :: lastName :: loginTime ::
            status :: _ =>
          .ok ⟨.noError,
            { uid := some userId
              address := some address
              pubKey := some pubKey33
              avatar := some (cString avatar)
              nickName := some (cString nickName)
              userName := some (cString userName)
              signInfo := some (cString signInfo)
              firstName := some (cString firstName)
              lastName := some (cString lastName)
              loginTime := some (string2int loginTime)
              status := some (if status.isEmpty then 0 else string2int status) }, mset⟩
        | _ => .error .listEnd
  else .ok ⟨.eSystem, {}, none⟩

end Server
end PtpCore
