import PtpCore.Lib.Run
import PtpCore.Net.AccountPdu
import PtpCore.Proof.Crypto.AesGcm
import PtpCore.Proof.Net.Signing
import PtpCore.Proof.Proto.WireLibrary
import PtpCore.Proof.Server.Response

/-!
# The encrypted channel of a client

The strings of the channel are written by `bytes_to_hex`, with `0x` in front, and read by
`hex_to_string`, which refuses the `x` (`hexToString_bytesToHex`). So from the first answer to a
captcha request on, nothing is encrypted or decrypted with them: the call throws before it comes
to that (`keys_of_stored`).

What is encrypted at all is encrypted before that, or by the connection, whose strings stay empty.
There the key and the iv are copied from behind an empty string, from memory that nothing has
written for this purpose. Whether two bodies share a key and an iv is decided by that memory
alone.
-/

namespace PtpCore
namespace Proof
namespace Net

open Lib
open PtpCore.Global PtpCore.Net PtpCore.Crypto PtpCore.Proto
open Toolbox

/-! ## Strings that were stored -/

theorem hexToString_bytesToHex (b : Bytes) : hexToString (bytesToHex b) = none := rfl

section

variable {ch : Channel} {env : ClientEnv}

theorem copyHex_error {text behind : Bytes} {n : Nat} {fault : NetFault}
    (h : copyHex text behind n = .error fault) : fault = .invalidArgument := by
  unfold copyHex at h
  split at h
  · cases h
    rfl
  · cases h

/-- With an iv that was stored there are no keys, whatever the other strings are. -/
theorem keys_of_stored {iv : Bytes} (h : ch.ivHex = bytesToHex iv) :
    ch.keys env = .error .invalidArgument := by
  unfold Channel.keys
  cases hkey : copyHex ch.sharedKeyHex env.behindKey 32 with
  | error fault => rw [copyHex_error hkey]; rfl
  | ok key => rw [h]; rfl

/-- Without any strings the keys are what the memory holds. -/
theorem keys_of_empty (env : ClientEnv) :
    ({} : Channel).keys env = .ok ⟨(0 :: env.behindKey).take 32, (0 :: env.behindIv).take 16,
      (0 :: env.behindAad).take 16⟩ := rfl

end

/-! ## What the captcha step stores -/

section

variable {l : ClientLibs} {env : ClientEnv} {a a' : Account l.storage.Files} {pdu : CImPdu}
  {r : Except NetFault (Option CImPdu)}

/-- The step stores an iv, or ends before it has touched anything. -/
theorem handleCaptcha_channel (h : a.handleCaptcha l env pdu = (a', r)) :
    a' = a ∧ r = .error .stackOverflow ∨ ∃ iv, a'.channel.ivHex = bytesToHex iv := by
  unfold Account.handleCaptcha at h
  split at h
  · cases h
    exact .inl ⟨rfl, rfl⟩
  · right
    refine ⟨bodyAt env pdu 32 16, ?_⟩
    dsimp only at h
    split at h
    · cases h
      rfl
    · split at h
      · cases h
        rfl
      · split at h
        · split at h <;> cases h <;> rfl
        · split at h
          · cases h
            rfl
          · split at h <;> cases h <;> rfl

theorem handlePdu_channel (h : a.handlePdu l env pdu = (a', r)) :
    a'.channel = a.channel ∧ (∀ q, r ≠ .ok (some q)) ∨
      ∃ iv, a'.channel.ivHex = bytesToHex iv := by
  have hhandle : ∀ {b : Account l.storage.Files} {q : CImPdu}, b.channel = a.channel →
      (if q.getCommandId = cidAuthCaptchaRes then b.handleCaptcha l env q else (b, .ok none)) =
        (a', r) →
      a'.channel = a.channel ∧ (∀ q, r ≠ .ok (some q)) ∨
        ∃ iv, a'.channel.ivHex = bytesToHex iv := by
    intro b q hb hq
    split at hq
    · rcases handleCaptcha_channel hq with ⟨rfl, rfl⟩ | hiv
      · exact .inl ⟨hb, fun q h => by cases h⟩
      · exact .inr hiv
    · cases hq
      exact .inl ⟨hb, fun q h => by cases h⟩
  unfold Account.handlePdu at h
  dsimp only at h
  split at h
  · split at h
    · cases h
      exact .inl ⟨rfl, fun q h => by cases h⟩
    · cases h
      exact .inl ⟨rfl, fun q h => by cases h⟩
    · exact hhandle (b := { a with connectionState := .logged }) rfl h
  · exact hhandle rfl h

end

/-! ## Sending and receiving with stored strings -/

section

variable (l : ClientLibs)

/-- What `a` makes of a PDU reaches `b` with its command id, its sequence number and its body. -/
def ChannelRoundTrip (env env' : ClientEnv) (a b : Account l.storage.Files) (pdu : CImPdu) : Prop :=
  ∃ sent q r, (a.sendPdu l.gcm env pdu).2 = .ok sent ∧ Server.Delivered sent q ∧
    decryptPdu l.gcm env' b.channel q = .ok (some r) ∧ r.getCommandId = pdu.getCommandId ∧
    r.getSeqNum = pdu.getSeqNum ∧ r.body = pdu.body

variable {l}

theorem sendPdu_of_stored {env : ClientEnv} {a : Account l.storage.Files} {iv : Bytes}
    (h : a.channel.ivHex = bytesToHex iv) {pdu : CImPdu} (hrev : pdu.getReversed = 1)
    (hbody : 0 < pdu.getBodyLength) : (a.sendPdu l.gcm env pdu).2 = .error .invalidArgument := by
  have hwants : wantsEncryption pdu = true := by
    rw [wantsEncryption, hrev]
    simpa using hbody
  rw [Account.sendPdu, if_pos hwants, encryptPdu, keys_of_stored h]

variable (l)

/-- The account has answered a captcha with a login request, so all three strings are stored. Every
    PDU it then encrypts ends in an exception, as does every encrypted PDU that is handled with
    the same strings: nothing makes the way. -/
theorem not_channelRoundTrip (env₀ env env' : ClientEnv) (a₀ a b : Account l.storage.Files)
    (captchaRes login pdu : CImPdu)
    (hstep : a₀.handlePdu l env₀ captchaRes = (a, .ok (some login)))
    (hb : b.channel = a.channel) (hrev : pdu.getReversed = 1) (hbody : 0 < pdu.getBodyLength) :
    ¬ ChannelRoundTrip l env env' a b pdu ∧
      (a.sendPdu l.gcm env pdu).2 = .error .invalidArgument ∧
      ∀ q : CImPdu, q.getReversed = 1 →
        (b.handlePdu l env' q).2 = .error .invalidArgument := by
  have hstored : ∃ iv, a.channel.ivHex = bytesToHex iv := by
    rcases handlePdu_channel hstep with ⟨-, hnone⟩ | hiv
    · exact absurd rfl (hnone login)
    · exact hiv
  obtain ⟨iv, hiv⟩ := hstored
  have hsend : (a.sendPdu l.gcm env pdu).2 = .error .invalidArgument :=
    sendPdu_of_stored hiv hrev hbody
  refine ⟨?_, hsend, ?_⟩
  · rintro ⟨sent, q, r, hsent, -⟩
    rw [hsend] at hsent
    cases hsent
  · intro q hq
    have hkeys : b.channel.keys env' = .error .invalidArgument := keys_of_stored (hb ▸ hiv)
    have hdec : decryptPdu l.gcm env' b.channel q = .error .invalidArgument := by
      unfold decryptPdu
      rw [hkeys]
      rfl
    unfold Account.handlePdu
    rw [if_pos hq]
    dsimp only
    rw [hdec]

end

/-! ### After a captcha

The account has the words of `testPhrase`. The server draws sixteen zero bytes for its key. -/

def sampleClient : ClientLibs where
  gcm := Crypto.sampleGcm
  secp := sampleCurve
  hd := sampleHD
  proto := Runtime.wireLibrary
  storage := plainFiles

def sampleClientEnv : ClientEnv where
  evp _ := true
  behindTag := 1024
  heap _ := 0
  behindKey := List.replicate 32 0
  behindIv := List.replicate 16 0
  behindAad := List.replicate 16 0
  behindBody := List.replicate 133 0
  sharedSecret := List.replicate 32 0
  memory := zeroMemory
  depth := 3

def sampleAccount : Account sampleClient.storage.Files where
  manager :=
    { accountId := 1
      entropy := bytesToHex testEntropy
      address := bytesToHex (toBE 20 0x9f8b11358775d4c36e54de37457da1b532bfaa65)
      files := (some (bytesToHex testEntropy), []) }
  channel := {}
  connectionState := .connected

def captchaResPdu : CImPdu :=
  CImPdu.new.setPBMsgCmd (fun _ => 0) (sampleClient.proto.authCaptchaRes.serialize
    { captcha := some "a1B2c3".toUTF8.toList
      sign := some (zeroSig64 ++ [0])
      address := some (toBE 20 0x399db6ed32539fbdf44c3e7678b5b428e378f666)
      iv := some (List.replicate 16 1)
      aad := some (List.replicate 16 2)
      error := some .noError }) cidAuthCaptchaRes 1

/-- A PDU that was read from a buffer, as `SendPduBuf` reads it. -/
def hiPdu : CImPdu :=
  Server.deliver ((CImPdu.new.setPBMsgCmd (fun _ => 0) (some "hi".toUTF8.toList) 4096 2).setReversed
    1)

/-- The step succeeds, and stores the secret that both sides have. -/
theorem handlePdu_captchaResPdu :
    let r := sampleAccount.handlePdu sampleClient sampleClientEnv captchaResPdu
    (match r.2 with | .ok (some _) => true | _ => false) = true ∧
      r.1.channel =
        { sharedKeyHex := bytesToHex
            (toBE 32 0x90e6b698af76897e319bb1b6c08e5a5352e01cb8696b77723c0082e0766d9b38)
          ivHex := bytesToHex (List.replicate 16 1)
          aadHex := bytesToHex (List.replicate 16 2) } := by
  decide +kernel

/-- The account after that, and its login request. -/
theorem exists_handlePdu_captchaResPdu :
    ∃ a login, sampleAccount.handlePdu sampleClient sampleClientEnv captchaResPdu =
        (a, .ok (some login)) ∧
      a.channel.ivHex = bytesToHex (List.replicate 16 1) := by
  obtain ⟨hok, hch⟩ := handlePdu_captchaResPdu
  generalize sampleAccount.handlePdu sampleClient sampleClientEnv captchaResPdu = r at hok hch
  obtain ⟨a, r⟩ := r
  match r, hok with
  | .ok (some login), _ =>
    refine ⟨a, login, rfl, ?_⟩
    exact congrArg Channel.ivHex hch

theorem hiPdu_spec : hiPdu.getReversed = 1 ∧ 0 < hiPdu.getBodyLength := by decide +kernel

theorem not_channelRoundTrip_captchaResPdu :
    ∃ a login, sampleAccount.handlePdu sampleClient sampleClientEnv captchaResPdu =
        (a, .ok (some login)) ∧
      ¬ ChannelRoundTrip sampleClient sampleClientEnv sampleClientEnv a a hiPdu := by
  obtain ⟨a, login, hstep, -⟩ := exists_handlePdu_captchaResPdu
  exact ⟨a, login, hstep, (not_channelRoundTrip sampleClient sampleClientEnv sampleClientEnv
    sampleClientEnv sampleAccount a a captchaResPdu login hiPdu hstep rfl hiPdu_spec.1
    hiPdu_spec.2).1⟩

/-- The two letters are not even sent. -/
theorem hiPdu_throws :
    ∃ a login, sampleAccount.handlePdu sampleClient sampleClientEnv captchaResPdu =
        (a, .ok (some login)) ∧ hiPdu.getReversed = 1 ∧ 0 < hiPdu.getBodyLength ∧
      (a.sendPdu sampleClient.gcm sampleClientEnv hiPdu).2 = .error .invalidArgument ∧
      ¬ ChannelRoundTrip sampleClient sampleClientEnv sampleClientEnv a a hiPdu := by
  obtain ⟨a, login, hstep, hiv⟩ := exists_handlePdu_captchaResPdu
  obtain ⟨hrev, hbody⟩ := hiPdu_spec
  have hsend : (a.sendPdu sampleClient.gcm sampleClientEnv hiPdu).2 = .error .invalidArgument :=
    sendPdu_of_stored (l := sampleClient) hiv hrev hbody
  refine ⟨a, login, hstep, hrev, hbody, hsend, ?_⟩
  rintro ⟨sent, q, r, hsent, -⟩
  rw [hsend] at hsent
  cases hsent

/-! ## Keys and ivs that are used again -/

/-- What happens at a client: a PDU arrives, or one of the three senders is called. -/
inductive ClientCall
  | handlePdu (pdu : CImPdu)
  | sendPdu (pdu : CImPdu)
  | sendPduBuf (pduBytes : Bytes)
  | connSendPduBuf (pduBytes : Bytes)

structure Client (l : ClientLibs) where
  account : Account l.storage.Files
  /-- The calls of `aes_gcm_encrypt` so far. -/
  log : List Encryption

/-- No key and iv were given two bodies. -/
def NonceUnique (log : List Encryption) : Prop :=
  ∀ x ∈ log, ∀ y ∈ log, x.key = y.key → x.iv = y.iv → x.body = y.body

theorem nonceUnique_concat {log : List Encryption} {y : Encryption} :
    NonceUnique (log ++ [y]) ↔
      NonceUnique log ∧ ∀ x ∈ log, x.key = y.key → x.iv = y.iv → x.body = y.body := by
  constructor
  · intro h
    refine ⟨?_, ?_⟩
    · intro x hx z hz
      exact h x (List.mem_append_left _ hx) z (List.mem_append_left _ hz)
    · intro x hx
      exact h x (List.mem_append_left _ hx) y (by simp)
  · rintro ⟨hlog, hy⟩ x hx z hz hkey hiv
    rcases List.mem_append.mp hx with hx | hx
    · rcases List.mem_append.mp hz with hz | hz
      · exact hlog x hx z hz hkey hiv
      · cases List.mem_singleton.mp hz
        exact hy x hx hkey hiv
    · cases List.mem_singleton.mp hx
      rcases List.mem_append.mp hz with hz | hz
      · exact (hy z hz hkey.symm hiv.symm).symm
      · cases List.mem_singleton.mp hz
        rfl

section

variable (l : ClientLibs)

/-- One call. The login request that `handlePdu` sends is not encrypted
    (`sendPdu_loginRequest`). -/
def clientCall (s : Client l) (e : ClientEnv × ClientCall) : Client l :=
  match e.2 with
  | .handlePdu pdu => { s with account := (s.account.handlePdu l e.1 pdu).1 }
  | .sendPdu pdu => { s with log := s.log ++ (s.account.sendPdu l.gcm e.1 pdu).1.toList }
  | .sendPduBuf b => { s with log := s.log ++ (s.account.sendPduBuf l.gcm e.1 b).1.toList }
  | .connSendPduBuf b =>
    -- the strings of a connection are never stored to
    { s with log := s.log ++ (CClientConn.sendPduBuf l.gcm e.1 {} b).1.toList }

theorem sendPdu_loginRequest {env : ClientEnv} (a : Account l.storage.Files)
    (manager : AccountManager l.storage.Files) (address captcha : Bytes) :
    a.sendPdu l.gcm env (loginRequest l env manager address captcha) =
      (none, .ok (loginRequest l env manager address captcha)) := by
  have hrev : (loginRequest l env manager address captcha).getReversed = 0 := by
    unfold loginRequest CImPdu.setPBMsgCmd
    dsimp only
    split <;> rfl
  rw [Account.sendPdu, wantsEncryption, hrev]
  rfl

/-- The body that a call encrypts: by the connection, or by an account without strings. -/
def encryptedBody (s : Client l) (e : ClientEnv × ClientCall) : Option Bytes :=
  let ofAccount (pdu : CImPdu) : Option Bytes :=
    if wantsEncryption pdu ∧ s.account.channel = {} then some pdu.body else none
  match e.2 with
  | .handlePdu _ => none
  | .sendPdu pdu => ofAccount pdu
  | .sendPduBuf b =>
    match readPduUnchecked e.1.heap b b.length with
    | .error _ => none
    | .ok pdu => ofAccount pdu
  | .connSendPduBuf b =>
    match readPduUnchecked e.1.heap b b.length with
    | .error _ => none
    | .ok pdu => if wantsEncryption pdu then some pdu.body else none

/-- The encryption of a body with what the memory holds. -/
def memoryEncryption (env : ClientEnv) (body : Bytes) : Encryption :=
  ⟨(0 :: env.behindKey).take 32, (0 :: env.behindIv).take 16, body⟩

/-- The memory is not that of an earlier encryption of another body. -/
def MeetsFreshMemory (s : Client l) (e : ClientEnv × ClientCall) : Prop :=
  ∀ body ∈ encryptedBody l s e, ∀ x ∈ s.log, x.key = (0 :: e.1.behindKey).take 32 →
    x.iv = (0 :: e.1.behindIv).take 16 → x.body = body

variable {l}

theorem encryptPdu_of_empty (env : ClientEnv) (pdu : CImPdu) :
    (encryptPdu l.gcm env {} pdu).1 = some (memoryEncryption env pdu.body) := by
  unfold encryptPdu
  rw [keys_of_empty]
  dsimp only
  split <;> rfl

/-- No string is stored, or an iv is. -/
def ChannelInv (ch : Channel) : Prop := ch = {} ∨ ∃ iv, ch.ivHex = bytesToHex iv

theorem sendPdu_encryption {a : Account l.storage.Files} (ha : ChannelInv a.channel)
    (env : ClientEnv) (pdu : CImPdu) :
    (a.sendPdu l.gcm env pdu).1 =
      (if wantsEncryption pdu ∧ a.channel = {} then some pdu.body else none).map
        (memoryEncryption env) := by
  rw [Account.sendPdu]
  by_cases hw : wantsEncryption pdu = true
  · rw [if_pos hw]
    rcases ha with hempty | ⟨iv, hiv⟩
    · rw [if_pos ⟨hw, hempty⟩, hempty, encryptPdu_of_empty]
      rfl
    · have hne : a.channel ≠ {} := by
        intro h
        rw [h] at hiv
        cases hiv
      rw [if_neg fun h => hne h.2, encryptPdu, keys_of_stored hiv]
      rfl
  · rw [if_neg hw, if_neg fun h => hw h.1]
    rfl

/-- **One call.** -/
theorem clientCall_spec {s : Client l} (hs : ChannelInv s.account.channel)
    (e : ClientEnv × ClientCall) :
    ChannelInv (clientCall l s e).account.channel ∧
      (clientCall l s e).log =
        s.log ++ ((encryptedBody l s e).map (memoryEncryption e.1)).toList := by
  obtain ⟨env, call⟩ := e
  cases call with
  | handlePdu pdu =>
    refine ⟨?_, (List.append_nil _).symm⟩
    rcases handlePdu_channel (Prod.eta (s.account.handlePdu l env pdu)).symm with ⟨hch, -⟩ | hiv
    · rw [ChannelInv, clientCall, hch]
      exact hs
    · exact .inr hiv
  | sendPdu pdu =>
    refine ⟨hs, ?_⟩
    rw [clientCall]
    dsimp only
    rw [sendPdu_encryption hs]
    rfl
  | sendPduBuf b =>
    refine ⟨hs, ?_⟩
    rw [clientCall]
    dsimp only [encryptedBody]
    rw [Account.sendPduBuf]
    cases readPduUnchecked env.heap b b.length with
    | error fault => rfl
    | ok pdu =>
      dsimp only
      rw [sendPdu_encryption hs]
  | connSendPduBuf b =>
    refine ⟨hs, ?_⟩
    rw [clientCall]
    dsimp only [encryptedBody]
    rw [CClientConn.sendPduBuf]
    cases readPduUnchecked env.heap b b.length with
    | error fault => rfl
    | ok pdu =>
      dsimp only
      split
      · rw [encryptPdu_of_empty]
        rfl
      · rfl

theorem nonceUnique_run {s : Client l} (hs : ChannelInv s.account.channel)
    (es : List (ClientEnv × ClientCall)) :
    NonceUnique (es.foldl (clientCall l) s).log ↔
      NonceUnique s.log ∧ EachStep (clientCall l) (MeetsFreshMemory l) s es := by
  induction es generalizing s with
  | nil => exact (and_iff_left trivial).symm
  | cons e es ih =>
    obtain ⟨hinv, hlog⟩ := clientCall_spec hs e
    rw [List.foldl_cons, ih hinv, hlog, eachStep_cons, ← and_assoc]
    apply and_congr_left'
    unfold MeetsFreshMemory
    cases hbody : encryptedBody l s e with
    | none => simp
    | some body =>
      change NonceUnique (s.log ++ [memoryEncryption e.1 body]) ↔ _
      rw [nonceUnique_concat]
      simp [memoryEncryption]

variable (l)

/-- In a run of a client that starts without strings, no key and iv are given two bodies exactly
    if no call that encrypts meets the memory of an earlier encryption of another body. -/
theorem nonceUnique_iff_meetsFreshMemory (manager : AccountManager l.storage.Files)
    (state : ConnectionState) (es : List (ClientEnv × ClientCall)) :
    NonceUnique (es.foldl (clientCall l) ⟨⟨manager, {}, state⟩, []⟩).log ↔
      EachStep (clientCall l) (MeetsFreshMemory l) ⟨⟨manager, {}, state⟩, []⟩ es := by
  rw [nonceUnique_run (.inl rfl)]
  exact and_iff_right fun x hx => by cases hx

end

/-- A PDU of one byte as it is given to `SendPduBuf`, with `reversed` set to 1. -/
def letterPdu (letter : UInt8) : Bytes :=
  [0, 0, 0, 17, 0, 1, 0, 0, 0x10, 0, 0, 1, 0, 0, 0, 1, letter]

/-- Two letters on a connection, and the same memory each time. -/
def letterRun : List (ClientEnv × ClientCall) :=
  [(sampleClientEnv, .connSendPduBuf (letterPdu 0x61)),
    (sampleClientEnv, .connSendPduBuf (letterPdu 0x62))]

theorem not_nonceUnique_letterRun :
    ¬ NonceUnique (letterRun.foldl (clientCall sampleClient) ⟨sampleAccount, []⟩).log := by
  have hlog : (letterRun.foldl (clientCall sampleClient) ⟨sampleAccount, []⟩).log =
      [⟨List.replicate 32 0, List.replicate 16 0, [0x61]⟩,
        ⟨List.replicate 32 0, List.replicate 16 0, [0x62]⟩] := by
    decide +kernel
  intro h
  have hbody := h ⟨List.replicate 32 0, List.replicate 16 0, [0x61]⟩ (by simp [hlog])
    ⟨List.replicate 32 0, List.replicate 16 0, [0x62]⟩ (by simp [hlog]) rfl rfl
  exact absurd hbody (by decide)

end Net
end Proof
end PtpCore
