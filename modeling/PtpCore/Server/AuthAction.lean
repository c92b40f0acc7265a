import PtpCore.Global.AttachData
import PtpCore.Net.AccountManager
import PtpCore.Server.BusinessSrvConn
import PtpCore.Server.InterLogin
import PtpCore.Server.MsgSrvConn

/-!
# The login handlers (`ptp_server/actions/AuthAction.cpp`)

A login goes through four handlers. `AuthCaptchaReq` issues a captcha and makes a key for the
connection. `AuthLoginReq` checks the captcha, notes the address that is claimed, and passes the
signature on as a `ServerLoginReq`. That handler has `ServerLogin` check the signature and passes
the result on as a `ServerLoginRes`, whose handler computes the shared key and opens the
connection. "Passing on" serialises a message into a PDU and parses it again, in this process or
behind a socket.

A handler answers with a `CResponse`: nothing, a PDU for the client, or the next PDU.
-/

namespace PtpCore
namespace Server

open Lib Proto Crypto
open PtpCore.Global PtpCore.Net PtpCore.Wallet

/-! ## Requests and responses (`Request.h`, `Response.cpp`) -/

structure CRequest where
  handle : UInt32
  pdu : CImPdu

structure CResponse where
  pdu : Option CImPdu := none
  isNext : Bool := false

namespace CResponse

/-- `isPduValid`. It compares lengths, and a PDU that was not serialised has no length in it. -/
def isPduValid (r : CResponse) : Bool :=
  match r.pdu with
  | none => false
  | some p => (CByteStream.readUint32 p.buf.mem).toNat ≤ p.getLength

/-- `Next`, of what `SerializeToArray` answers. -/
def next (fill : Nat → UInt8) (msg : Option Bytes) (commandId seqNum : UInt16) : CResponse where
  pdu := some (CImPdu.new.setPBMsgCmd fill msg commandId seqNum)
  isNext := true

/-- `SendMsg`, which no handler asks to encrypt. -/
def sendMsg (fill : Nat → UInt8) (msg : Option Bytes) (commandId seqNum : UInt16) : CResponse where
  pdu := some ((CImPdu.new.setPBMsgCmd fill msg commandId seqNum).setReversed 0)

end CResponse

/-! ## What is outside -/

/-- Libraries: protocol buffers, the curve, and the keys of the wallet. -/
structure Libs where
  proto : Library
  secp : Secp256k1
  keys : HDKeyEncoder
  /-- `HDKey::privateKey`. -/
  privateKey : keys.HDKey → Bytes

/-- `alphanum`, in `gen_random` of `ptp_crypto/crypto_helpers.cpp`. -/
def alphanum : Bytes :=
  "0123456789ABCDEFGHIJKLMNOPQRSTUVWXYZabcdefghijklmnopqrstuvwxyz".toUTF8.toList

/-- `gen_random`, of as many characters as there are values of `time(nullptr)*rand() + rand()`, which
    the remainder is taken of as of unsigned numbers. -/
def genRandom (draws : List Nat) : Bytes := draws.map fun r => alphanum.getD (r % 62) 0

/-- What handling one PDU meets: random numbers, the clock, the cache, and unwritten memory. -/
structure Env where
  /-- What the `k`-th block holds that is allocated for a response. -/
  heap : Nat → Nat → UInt8
  /-- `gen_random(6)`. -/
  captcha : Bytes
  /-- Drawn by `RAND_bytes`, for `iv`, `aad` and `generate`. -/
  iv : Bytes
  aad : Bytes
  random : Bytes
  /-- `time(nullptr)`. -/
  now : UInt32
  cache : Cache
  /-- What follows a string in memory; no read goes further than this. -/
  beyond : Bytes
  length_beyond : 65 ≤ beyond.length
  /-- Whether a connection to the business server is open, asked before the handler for a login
      and after the handler for any request. -/
  loginConnOpen : Bool
  businessConnOpen : Bool

/-- The state and the response, unless the handler did not return. -/
abbrev HandlerResult := MsgServer × Except Fault CResponse

/-! ## The handlers -/

section

variable (l : Libs) (env : Env) (fill : Nat → UInt8)

/-- The key that `AuthCaptchaReq` makes from a new mnemonic: its private part and its address. -/
def captchaKey : Bytes × Bytes :=
  let mnemonic := MnemonicHelper.generate env.random
  let root := l.keys.makeEthRootKey (cString mnemonic.raw)
  let hdKey := l.keys.makeEthExtendedKey root ptpHdPath
  (l.privateKey hdKey, l.keys.getEthAddress hdKey)

def authCaptchaReq (request : CRequest) (s : MsgServer) : HandlerResult :=
  let seqNum := request.pdu.getSeqNum
  match s.findMsgSrvConnByHandle request.handle with
  | none => (s, .ok {})
  | some (c, conn) =>
    if (l.proto.authCaptchaReq.parse request.pdu.body).2 then
      let (prvKey, address) := captchaKey l env
      let s := (s.setConn c { conn with captcha := env.captcha }).record (.issued c env.captcha)
      match hexToString (address.drop 2) with
      | none => (s, .error .invalidArgument)
      | some address =>
        let msgData := formatSignMsgData env.captcha .ptp
        let msgRsp : AuthCaptchaRes :=
          { captcha := some env.captcha
            sign := some (ecdsaSignRecoverable l.secp msgData prvKey)
            address := some address
            iv := some env.iv
            aad := some env.aad
            error := some .noError }
        let s := s.setConn c { conn with
          captcha := env.captcha
          prvKey := Toolbox.bytesToHex prvKey
          iv := bytesToHexString env.iv
          aad := bytesToHexString env.aad }
        (s, .ok (.sendMsg fill (l.proto.authCaptchaRes.serialize msgRsp) cidAuthCaptchaRes seqNum))
    else
      let msgRsp : AuthCaptchaRes := { error := some .ePbParseError }
      (s, .ok (.sendMsg fill (l.proto.authCaptchaRes.serialize msgRsp) cidAuthCaptchaRes seqNum))

/-- The reply of the login handlers. -/
def authLoginRes (msgRsp : AuthLoginRes) (request : CRequest) : CResponse :=
  .sendMsg fill (l.proto.authLoginRes.serialize msgRsp) cidAuthLoginRes request.pdu.getSeqNum

/-- The user of a login: found by the claimed address, or made; and the connection added to it. -/
def loginUser (users : CImUserManager) (c : ConnId) (handle : UInt32) (address : Bytes) :
    CImUserManager :=
  match users.getImUserByAddress address with
  | some user => users.modify user (·.addMsgConn handle c)
  | none =>
    let (user, users) := users.newImUser address
    (users.addImUserByAddress address user).modify user (·.addMsgConn handle c)

def authLoginReq (request : CRequest) (s : MsgServer) : HandlerResult :=
  match s.findMsgSrvConnByHandle request.handle with
  | none => (s, .ok {})
  | some (c, conn) =>
    let fail (error : ERR) : HandlerResult :=
      (s, .ok (authLoginRes l fill { error := some error } request))
    if conn.address.length ≠ 0 then fail .eLoginError
    else if conn.captcha.length = 0 then fail .eLoginError
    else
      match l.proto.authLoginReq.parse request.pdu.body with
      | (_, false) => fail .ePbParseError
      | (msg, true) =>
        if msg.captcha.getD [] ≠ conn.captcha then fail .eLoginError
        else
          let address := msg.address.getD []
          let s := s.setConn c { conn with
            captcha := []
            address := address
            clientVersion := msg.clientVersion.getD []
            clientType := msg.clientType
            onlineStatus := userStatOnline
            loginTime := env.now }
          let s := { s with users := loginUser s.users c conn.handle address }
          let msgNext : ServerLoginReq :=
            { address := some address
              captcha := some (msg.captcha.getD [])
              sign := some (msg.sign.getD [])
              attachData := some (CDbAttachData.encode ⟨attachTypeHandle, conn.handle, 0⟩) }
          (s, .ok (.next fill (l.proto.serverLoginReq.serialize msgNext) cidServerLoginReq
            request.pdu.getSeqNum))

/-- What `ServerLogin` has found, for the log. -/
def loginEvent (msg : ServerLoginReq) : ERR → Event
  | .noError =>
    .accepted (msg.captcha.getD []) (signAt (msg.sign.getD []) env.beyond) (msg.address.getD [])
  | error => .refused error

def serverLoginReq (request : CRequest) (s : MsgServer) : HandlerResult :=
  let seqNum := request.pdu.getSeqNum
  let reply (msgRsp : ServerLoginRes) : CResponse :=
    .next fill (l.proto.serverLoginRes.serialize msgRsp) cidServerLoginRes seqNum
  match l.proto.serverLoginReq.parse request.pdu.body with
  | (msg, false) =>
    (s.record (.refused .ePbParseError), .ok (reply
      { attachData := some (msg.attachData.getD []), error := some .ePbParseError }))
  | (msg, true) =>
    match serverLogin l.secp env.cache env.beyond env.now msg with
    | .error fault => (s, .error fault)
    | .ok login =>
      (s.record (loginEvent env msg login.error), .ok (reply
        { attachData := some (msg.attachData.getD [])
          error := some login.error
          userInfo := some login.user }))

/-- The user in the reply of a login: what the request carried, every field set. -/
def replyUser (user : UserInfo) : UserInfo :=
  { uid := some (user.uid.getD 0)
    address := some (user.address.getD [])
    userName := some (user.userName.getD [])
    nickName := some (user.nickName.getD [])
    signInfo := some (user.signInfo.getD [])
    avatar := some (user.avatar.getD [])
    status := some (user.status.getD 0)
    pubKey := some (user.pubKey.getD []) }

/-- What the connection and the user get when a login succeeds. -/
def openConn (s : MsgServer) (c : ConnId) (conn : CMsgSrvConn) (user : UserRef) (handle : UInt32)
    (info : UserInfo) (sharedSecret : Bytes) : MsgServer :=
  let userId := info.uid.getD 0
  let s := s.setConn c { conn with
    shareKey := bytesToHexString sharedSecret
    userId := userId
    isOpen := true }
  let users := s.users.modify user fun u => { u with userId := userId, handle := handle }
  { s with users := users.addImUserById userId user }.record
    (.opened c (info.address.getD []) conn.address)

/-- `ServerLoginRes`. Its `error` is read from the message before that is parsed, so it is
    `NO_ERROR` whatever the message says. -/
def serverLoginRes (request : CRequest) (s : MsgServer) : HandlerResult :=
  let fail (error : ERR) : HandlerResult :=
    (s, .ok (authLoginRes l fill { error := some error } request))
  match l.proto.serverLoginRes.parse request.pdu.body with
  | (_, false) => fail .ePbParseError
  | (msg, true) =>
    match CDbAttachData.decode (msg.attachData.getD []) with
    | .error e => (s, .error (.threw e))
    | .ok _ =>
      let info := msg.userInfo.getD {}
      match s.users.getImUserByAddress (info.address.getD []) with
      | none => fail .eLoginError
      | some user =>
        let fail (error : ERR) : HandlerResult :=
          (s, .ok (authLoginRes l fill
            { error := some error, userInfo := some (replyUser info) } request))
        match s.findMsgSrvConnByHandle request.handle with
        | none => (s, .error .nullConn)
        | some (c, conn) =>
          if conn.prvKey.isEmpty then fail .eLoginError
          else
            let pubKey33 := (info.pubKey.getD [] ++ 0 :: env.beyond).take 33
            match l.secp.parse pubKey33 with
            | none => fail .eLoginError
            | some pubKeyRaw =>
              match ecdhCreateShareKey l.secp pubKeyRaw conn.prvKey with
              | none => (s, .error .invalidArgument)
              | some none => fail .eLoginError
              | some (some sharedSecret) =>
                (openConn s c conn user request.handle info sharedSecret,
                  .ok (authLoginRes l fill
                    { error := some .noError, userInfo := some (replyUser info) } request))

end

end Server
end PtpCore
