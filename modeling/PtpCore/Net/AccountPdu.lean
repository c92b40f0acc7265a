import PtpCore.Crypto.AesGcm
import PtpCore.Global.ImPdu
import PtpCore.Net.AccountKeys
import PtpCore.Proto.Messages

/-!
# The PDUs of an account (`ptp_net/AccountManager.cpp`, `ptp_net/ClientConn.cpp`)

An account keeps three strings for the encrypted channel, the shared key, the iv and the
associated data, all as hexadecimal text. `handlePdu` stores them when it handles the answer to a
captcha request; it takes that message apart by position, without parsing it, and answers with a
login request. A PDU whose `reversed` field is 1 has an encrypted body, in either direction.

A connection has three strings of its own under the same names, which nothing stores to.
-/

namespace PtpCore
namespace Net

open Lib Wallet Crypto Proto
open PtpCore.Global

/-- How a call can fail to return. -/
inductive NetFault
  /-- The `invalid_argument` of `hex_to_string`. -/
  | invalidArgument
  /-- The `bad_array_new_length` of `new uchar_t[-1]`. -/
  | badArrayNewLength
  /-- A store outside an array on the stack. -/
  | overrun
  /-- `bytes_to_hex` over a length of -1. -/
  | wildRead
  /-- The exception of `ReadPdu`. -/
  | threw (e : CPduException)
  /-- A null pointer was dereferenced. -/
  | nullDeref
  /-- `getAccountAddress` and `upsertEntropy` called each other without end. -/
  | stackOverflow
  /-- libsecp256k1 ended the process. -/
  | abort
  deriving DecidableEq, Repr

/-- `ConnectionState`. -/
inductive ConnectionState
  | connecting
  | waitingForNetwork
  | connected
  | connectingViaProxy
  | logged
  | closed
  deriving DecidableEq, Repr

/-- `m_sharedKeyHex`, `m_ivHex` and `m_aadHex`. -/
structure Channel where
  sharedKeyHex : Bytes := []
  ivHex : Bytes := []
  aadHex : Bytes := []
  deriving DecidableEq, Repr

structure Account (Files : Type) where
  manager : AccountManager Files
  channel : Channel
  connectionState : ConnectionState

/-- The libraries of the client. -/
structure ClientLibs where
  gcm : Gcm
  secp : Secp256k1
  hd : HDPrimitives
  proto : Library
  storage : Storage

/-- What one call meets: which library calls succeed, the layout of the frame of
    `aes_gcm_encrypt`, and memory that was not written. -/
structure ClientEnv where
  evp : EvpCall → Bool
  behindTag : Nat
  heap : Nat → UInt8
  /-- Behind the three strings that `hex_to_string` returns; no read goes further. -/
  behindKey : Bytes
  behindIv : Bytes
  behindAad : Bytes
  /-- Behind the body of a PDU. -/
  behindBody : Bytes
  /-- `unsigned char shared_secret[32]` before it is written. -/
  sharedSecret : Bytes
  memory : Unspecified
  /-- The depth of the stack, in calls. -/
  depth : Nat

/-! ## Sending -/

/-- `memcpy(dst, hex_to_string(text).data(), n)`. -/
def copyHex (text behind : Bytes) (n : Nat) : Except NetFault Bytes :=
  match hexToString text with
  | none => .error .invalidArgument
  | some bytes => .ok ((bytes ++ 0 :: behind).take n)

structure ChannelKeys where
  key : Bytes
  iv : Bytes
  aad : Bytes
  deriving DecidableEq, Repr

/-- How encryption and decryption begin. -/
def Channel.keys (ch : Channel) (env : ClientEnv) : Except NetFault ChannelKeys := do
  let key ← copyHex ch.sharedKeyHex env.behindKey 32
  let iv ← copyHex ch.ivHex env.behindIv 16
  let aad ← copyHex ch.aadHex env.behindAad 16
  return ⟨key, iv, aad⟩

/-- The test in front of it. -/
def wantsEncryption (pdu : CImPdu) : Bool := pdu.getReversed == 1 && 0 < pdu.getBodyLength

/-- One call of `aes_gcm_encrypt`. -/
structure Encryption where
  key : Bytes
  iv : Bytes
  body : Bytes
  deriving DecidableEq, Repr

/-- The encrypting branch of both senders: the call it makes of `aes_gcm_encrypt`, if it comes to
    that, and the PDU that goes out. -/
def encryptPdu (gcm : Gcm) (env : ClientEnv) (ch : Channel) (pdu : CImPdu) :
    Option Encryption × Except NetFault CImPdu :=
  match ch.keys env with
  | .error fault => (none, .error fault)
  | .ok keys =>
    let call : Encryption := ⟨keys.key, keys.iv, pdu.body⟩
    match aesGcmEncrypt gcm env.behindTag env.evp pdu.body keys.key keys.iv (some keys.aad) with
    | .error .overrun => (some call, .error .overrun)
    -- a length of -1 goes to `SetPBMsg`
    | .error .failed => (some call, .error .badArrayNewLength)
    | .ok cipherData =>
      let pdu1 := CImPdu.new.setPBMsgBuf env.heap cipherData
      let pdu1 := pdu1.setCommandId pdu.getCommandId
      let pdu1 := pdu1.setSeqNum pdu.getSeqNum
      (some call, .ok (pdu1.setReversed pdu.getReversed))

/-- `ReadPdu`, whose result is used without a test. -/
def readPduUnchecked (heap : Nat → UInt8) (buf : Bytes) (len : Nat) : Except NetFault CImPdu :=
  match CImPdu.readPdu heap buf len with
  | .error e => .error (.threw e)
  | .ok none => .error .nullDeref
  | .ok (some pdu) => .ok pdu

/-- `AccountManager::SendPdu`: what it gives to `_SendPdu`. -/
def Account.sendPdu {Files : Type} (gcm : Gcm) (env : ClientEnv) (a : Account Files)
    (pdu : CImPdu) : Option Encryption × Except NetFault CImPdu :=
  if wantsEncryption pdu then encryptPdu gcm env a.channel pdu else (none, .ok pdu)

/-- `AccountManager::SendPduBuf`. -/
def Account.sendPduBuf {Files : Type} (gcm : Gcm) (env : ClientEnv) (a : Account Files)
    (pduBytes : Bytes) : Option Encryption × Except NetFault CImPdu :=
  match readPduUnchecked env.heap pduBytes pduBytes.length with
  | .error fault => (none, .error fault)
  | .ok pdu => a.sendPdu gcm env pdu

/-- `CClientConn::SendPduBuf`, of a connection with these strings: what it gives to `Send`. -/
def CClientConn.sendPduBuf (gcm : Gcm) (env : ClientEnv) (ch : Channel) (pduBytes : Bytes) :
    Option Encryption × Except NetFault CImPdu :=
  match readPduUnchecked env.heap pduBytes pduBytes.length with
  | .error fault => (none, .error fault)
  | .ok pdu => if wantsEncryption pdu then encryptPdu gcm env ch pdu else (none, .ok pdu)

/-! ## Receiving -/

/-- `unsigned char decData[1024]`. -/
def decDataLen : Nat := 1024

/-- The first half of `handlePdu`: the PDU with its body decrypted, or `none` where it returns. -/
def decryptPdu (gcm : Gcm) (env : ClientEnv) (ch : Channel) (pdu : CImPdu) :
    Except NetFault (Option CImPdu) := do
  let keys ← ch.keys env
  match aesGcmDecrypt gcm env.evp pdu.body keys.key keys.iv (some keys.aad) with
  | .error _ => throw .wildRead
  | .ok decData =>
    if decDataLen < decData.length then throw .overrun
    if decData.isEmpty then return none
    let pdu1 := CImPdu.new.setPBMsgBuf env.heap decData
    let pdu1 := pdu1.setCommandId pdu.getCommandId
    let pdu1 := pdu1.setSeqNum pdu.getSeqNum
    let pdu1 := pdu1.setReversed 0
    some <$> readPduUnchecked env.heap pdu1.buf.mem pdu1.getLength

/-- `isConnected()`. -/
def ConnectionState.isConnected (c : ConnectionState) : Bool := c == .logged || c == .connected

/-- The answer to a captcha request as it is taken apart: `n` bytes from position `i`. -/
def bodyAt (env : ClientEnv) (pdu : CImPdu) (i n : Nat) : Bytes :=
  slice (pdu.getBodyData ++ env.behindBody) i n

section

variable (l : ClientLibs) (env : ClientEnv)

/-- The login request for a captcha. -/
def loginRequest (a : AccountManager l.storage.Files) (address captcha : Bytes) : CImPdu :=
  let msg : AuthLoginReq :=
    { address := some address
      captcha := some captcha
      sign := some (AccountManager.signMessage l.secp l.hd env.memory a captcha)
      clientVersion := some "1.0.1".toUTF8.toList
      clientType := some .android }
  CImPdu.new.setPBMsgCmd env.heap (l.proto.authLoginReq.serialize msg) cidAuthLoginReq 0

/-- The branch for `CID_AuthCaptchaRes`, and the login request that goes out. -/
def Account.handleCaptcha (a : Account l.storage.Files) (pdu : CImPdu) :
    Account l.storage.Files × Except NetFault (Option CImPdu) :=
  match AccountManager.getAccountAddress (hdKeyEncoder l.hd) l.storage env.memory env.depth
    a.manager with
  | none => (a, .error .stackOverflow)
  | some (address, manager) =>
    let captcha := cString (bodyAt env pdu 2 6)
    let addressBuff := bodyAt env pdu 10 20
    let sign65Buf := bodyAt env pdu 68 65
    let channel := { a.channel with
      ivHex := Toolbox.bytesToHex (bodyAt env pdu 32 16)
      aadHex := Toolbox.bytesToHex (bodyAt env pdu 50 16) }
    let a := { a with manager := manager, channel := channel }
    let recId := recoveryId (sign65Buf.getD 64 0)
    if recId < 0 ∨ 3 < recId then (a, .error .abort)
    else
      match recoverPubKeyAndAddressFromSig l.secp sign65Buf (formatSignMsgData captcha .ptp) with
      | none => (a, .ok none)
      | some (pubKey33, srvAddressHex) =>
        if srvAddressHex ≠ Toolbox.bytesToHex addressBuff then
          -- `closeSocket`, which serialises a null message
          if a.connectionState.isConnected then (a, .error .nullDeref) else (a, .ok none)
        else
          match l.secp.parse pubKey33 with
          | none => (a, .ok none)
          | some pubKeyRaw =>
            let sharedSecret :=
              (AccountManager.createShareKey l.secp l.hd env.memory a.manager pubKeyRaw).getD
                env.sharedSecret
            let a := { a with
              channel := { channel with sharedKeyHex := Toolbox.bytesToHex sharedSecret } }
            let pdu := loginRequest l env a.manager address captcha
            match (a.sendPdu l.gcm env pdu).2 with
            | .error fault => (a, .error fault)
            | .ok pdu => (a, .ok (some pdu))

/-- `AccountManager::handlePdu`, and what it gives to `_SendPdu`. -/
def Account.handlePdu (a : Account l.storage.Files) (pdu : CImPdu) :
    Account l.storage.Files × Except NetFault (Option CImPdu) :=
  let handle (a : Account l.storage.Files) (pdu : CImPdu) :
      Account l.storage.Files × Except NetFault (Option CImPdu) :=
    if pdu.getCommandId = cidAuthCaptchaRes then a.handleCaptcha l env pdu else (a, .ok none)
  if pdu.getReversed = 1 then
    let a := { a with connectionState := .logged }
    match decryptPdu l.gcm env a.channel pdu with
    | .error fault => (a, .error fault)
    | .ok none => (a, .ok none)
    | .ok (some pdu) => handle a pdu
  else handle a pdu

/-! ### What is read -/

/-- Where the parts of the answer to a captcha request are looked for: the captcha, the address, the
    iv, the associated data and the signature. -/
def captchaParts : List (Nat × Nat) := [(2, 6), (10, 20), (32, 16), (50, 16), (68, 65)]

end

end Net
end PtpCore
