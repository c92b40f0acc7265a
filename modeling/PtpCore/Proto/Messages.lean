import PtpCore.Lib.Wire

/-!
# The messages of the login (`proto-v1/PTP.Common.proto`, `PTP.Auth.proto`, `PTP.Server.proto`)

Every field of a proto2 message has a presence bit, so every field is an `Option`; a getter
answers the default for a field that is not set. A message is initialised when its required fields
are set, those of the messages inside it included.

The runtime library is not part of the repository. A `Codec` is what the code uses of it:
`SerializeToArray`, which writes an initialised message field by field and whose answer for another
one is left open (a release build writes the fields there are, the code at hand expects it to
fail), and `ParseFromArray`, which accepts only initialised messages and leaves what it has read in
the message either way.
-/

namespace PtpCore
namespace Proto

open Lib

/-! ## Enumerations -/

/-- `ERR`. -/
inductive ERR
  | noError
  | eSystem
  | eGroupCreatePairGroupMemberSieInvalid
  | eGroupCreatePairGroupNoRegUser
  | eGroupHasCreated
  | eReasonNoRouteServer
  | eReasonNoLoginServer
  | eReasonNoDbServer
  | eLoginError
  | ePbParseError
  | eSwitchUserNoOnline
  | eUsernameExists
  | eUsernameInvalid
  | eClient
  | eClientTimeout
  | eServerNotFound
  deriving DecidableEq, Repr

def ERR.code : ERR → Nat
  | .noError => 0
  | .eSystem => 1
  | .eGroupCreatePairGroupMemberSieInvalid => 2
  | .eGroupCreatePairGroupNoRegUser => 3
  | .eGroupHasCreated => 4
  | .eReasonNoRouteServer => 5
  | .eReasonNoLoginServer => 6
  | .eReasonNoDbServer => 7
  | .eLoginError => 8
  | .ePbParseError => 9
  | .eSwitchUserNoOnline => 10
  | .eUsernameExists => 11
  | .eUsernameInvalid => 12
  | .eClient => 1003
  | .eClientTimeout => 1004
  | .eServerNotFound => 404

/-- `ClientType`. -/
inductive ClientType
  | web
  | pc
  | mac
  | ios
  | android
  deriving DecidableEq, Repr

def ClientType.code : ClientType → Nat
  | .web => 0x01
  | .pc => 0x02
  | .mac => 0x03
  | .ios => 0x11
  | .android => 0x12

/-- `CID_AuthLoginReq` and the other command ids that have a handler or are sent. -/
def cidAuthLoginReq : UInt16 := 0x0101

def cidAuthLoginRes : UInt16 := 0x0102

def cidAuthCaptchaReq : UInt16 := 0x0105

def cidAuthCaptchaRes : UInt16 := 0x0106

def cidServerLoginReq : UInt16 := 0x0601

def cidServerLoginRes : UInt16 := 0x0602

/-- `USER_STAT_ONLINE`. -/
def userStatOnline : UInt32 := 1

/-! ## Messages -/

/-- What the runtime knows of a message type. -/
class Message (M : Type) where
  /-- A message as its constructor leaves it. -/
  empty : M
  isInitialized : M → Bool
  /-- The fields that are set, as `SerializeWithCachedSizes` writes them. -/
  fields : M → List Wire.Field

/-- Fields of the three kinds there are; an enumeration is written as its number. -/
def stringField (num : Nat) (v : Option Bytes) : List Wire.Field := Wire.opt num (v.map .bytes)

def numberField (num : Nat) (v : Option Nat) : List Wire.Field := Wire.opt num (v.map .varint)

def messageField {M : Type} [Message M] (num : Nat) (v : Option M) : List Wire.Field :=
  Wire.opt num (v.map fun m => .bytes (Wire.encode (Message.fields m)))

structure UserInfo where
  address : Option Bytes := none
  pubKey : Option Bytes := none
  avatar : Option Bytes := none
  status : Option UInt32 := none
  userName : Option Bytes := none
  nickName : Option Bytes := none
  signInfo : Option Bytes := none
  uid : Option UInt32 := none
  firstName : Option Bytes := none
  lastName : Option Bytes := none
  loginTime : Option UInt32 := none
  isOnline : Option Bool := none
  deriving DecidableEq, Repr

instance : Message UserInfo where
  empty := {}
  isInitialized m :=
    m.address.isSome && m.pubKey.isSome && m.avatar.isSome && m.status.isSome && m.uid.isSome
  fields m :=
    stringField 1 m.address ++ stringField 2 m.pubKey ++ stringField 3 m.avatar ++
      numberField 4 (m.status.map UInt32.toNat) ++ stringField 5 m.userName ++
      stringField 6 m.nickName ++ stringField 7 m.signInfo ++
      numberField 8 (m.uid.map UInt32.toNat) ++ stringField 9 m.firstName ++
      stringField 10 m.lastName ++ numberField 11 (m.loginTime.map UInt32.toNat) ++
      numberField 12 (m.isOnline.map Bool.toNat)

structure AuthCaptchaReq where
  deriving DecidableEq, Repr

instance : Message AuthCaptchaReq where
  empty := {}
  isInitialized _ := true
  fields _ := []

structure AuthCaptchaRes where
  captcha : Option Bytes := none
  address : Option Bytes := none
  iv : Option Bytes := none
  aad : Option Bytes := none
  sign : Option Bytes := none
  error : Option ERR := none
  deriving DecidableEq, Repr

instance : Message AuthCaptchaRes where
  empty := {}
  isInitialized m :=
    m.captcha.isSome && m.address.isSome && m.iv.isSome && m.aad.isSome && m.sign.isSome &&
      m.error.isSome
  fields m :=
    stringField 1 m.captcha ++ stringField 2 m.address ++ stringField 3 m.iv ++
      stringField 4 m.aad ++ stringField 5 m.sign ++ numberField 6 (m.error.map ERR.code)

structure AuthLoginReq where
  address : Option Bytes := none
  captcha : Option Bytes := none
  clientType : Option ClientType := none
  clientVersion : Option Bytes := none
  sign : Option Bytes := none
  deriving DecidableEq, Repr

instance : Message AuthLoginReq where
  empty := {}
  isInitialized m :=
    m.address.isSome && m.captcha.isSome && m.clientType.isSome && m.sign.isSome
  fields m :=
    stringField 1 m.address ++ stringField 2 m.captcha ++
      numberField 3 (m.clientType.map ClientType.code) ++ stringField 5 m.clientVersion ++
      stringField 6 m.sign

structure AuthLoginRes where
  error : Option ERR := none
  userInfo : Option UserInfo := none
  deriving DecidableEq, Repr

instance : Message AuthLoginRes where
  empty := {}
  isInitialized m := m.error.isSome && m.userInfo.all Message.isInitialized
  fields m := numberField 2 (m.error.map ERR.code) ++ messageField 5 m.userInfo

structure ServerLoginReq where
  address : Option Bytes := none
  captcha : Option Bytes := none
  sign : Option Bytes := none
  attachData : Option Bytes := none
  deriving DecidableEq, Repr

instance : Message ServerLoginReq where
  empty := {}
  isInitialized m := m.address.isSome && m.captcha.isSome && m.sign.isSome
  fields m :=
    stringField 1 m.address ++ stringField 2 m.captcha ++ stringField 3 m.sign ++
      stringField 4 m.attachData

structure ServerLoginRes where
  error : Option ERR := none
  userInfo : Option UserInfo := none
  attachData : Option Bytes := none
  deriving DecidableEq, Repr

instance : Message ServerLoginRes where
  empty := {}
  isInitialized m := m.error.isSome && m.userInfo.all Message.isInitialized
  fields m :=
    numberField 1 (m.error.map ERR.code) ++ messageField 2 m.userInfo ++
      stringField 20 m.attachData

structure HeartBeatNotify where
  deriving DecidableEq, Repr

instance : Message HeartBeatNotify where
  empty := {}
  isInitialized _ := true
  fields _ := []

/-! ## The runtime library -/

/-- `SerializeToArray` and `ParseFromArray` of one message type. -/
structure Codec (M : Type) [Message M] where
  /-- The bytes, or `none` when it returns false. -/
  serialize : M → Option Bytes
  /-- The message afterwards, and what was returned. -/
  parse : Bytes → M × Bool
  /-- An initialised message of at most `INT_MAX` bytes is written in the wire format. -/
  serialize_eq : ∀ {m}, Message.isInitialized m = true →
    (Wire.encode (Message.fields m)).length < 2 ^ 31 →
    serialize m = some (Wire.encode (Message.fields m))
  length_lt : ∀ {m b}, serialize m = some b → b.length < 2 ^ 31
  /-- What was written is read back, and accepted if it is initialised. -/
  parse_serialize : ∀ {m b}, serialize m = some b → parse b = (m, Message.isInitialized m)
  parse_nil : parse [] = (Message.empty, Message.isInitialized (Message.empty : M))

/-- The library, for the messages of the login. -/
structure Library where
  authCaptchaReq : Codec AuthCaptchaReq
  authCaptchaRes : Codec AuthCaptchaRes
  authLoginReq : Codec AuthLoginReq
  authLoginRes : Codec AuthLoginRes
  serverLoginReq : Codec ServerLoginReq
  serverLoginRes : Codec ServerLoginRes
  heartBeatNotify : Codec HeartBeatNotify

end Proto
end PtpCore
