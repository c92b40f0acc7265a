import PtpCore.Proof.Server.Response

/-!
# What each login handler can do

One lemma for each handler, on a connection that is there: the states it can leave, the responses
it can give, and what it has checked by then. Nothing after this module looks into a handler.
-/

namespace PtpCore
namespace Proof
namespace Server

open Lib Proto PtpCore.Crypto
open PtpCore.Global PtpCore.Server

/-! ## States -/

@[simp] theorem conns_record (s : MsgServer) (e : Event) : (s.record e).conns = s.conns := rfl

@[simp] theorem msgConnMap_record (s : MsgServer) (e : Event) :
    (s.record e).msgConnMap = s.msgConnMap := rfl

@[simp] theorem log_record (s : MsgServer) (e : Event) : (s.record e).log = s.log ++ [e] := rfl

@[simp] theorem conns_setConn (s : MsgServer) (c : ConnId) (conn : CMsgSrvConn) :
    (s.setConn c conn).conns = s.conns.set c conn := rfl

@[simp] theorem msgConnMap_setConn (s : MsgServer) (c : ConnId) (conn : CMsgSrvConn) :
    (s.setConn c conn).msgConnMap = s.msgConnMap := rfl

@[simp] theorem log_setConn (s : MsgServer) (c : ConnId) (conn : CMsgSrvConn) :
    (s.setConn c conn).log = s.log := rfl

theorem setConn_record_setConn (s : MsgServer) (c : ConnId) (conn conn' : CMsgSrvConn)
    (e : Event) :
    ((s.setConn c conn).record e).setConn c conn' = (s.setConn c conn').record e := by
  rw [MsgServer.setConn, conns_record, conns_setConn, Assoc.set_set]
  rfl

/-- The object of `c` is `conn`, and its descriptor leads to it. -/
structure Live (s : MsgServer) (c : ConnId) (conn : CMsgSrvConn) : Prop where
  object : s.conns.find c = some conn
  map : s.msgConnMap.find conn.handle = some c

theorem Live.find {s : MsgServer} {c : ConnId} {conn : CMsgSrvConn} (h : Live s c conn) :
    s.findMsgSrvConnByHandle conn.handle = some (c, conn) := by
  rw [MsgServer.findMsgSrvConnByHandle, h.map]
  dsimp only
  rw [h.object]
  rfl

theorem find_eq_some {s : MsgServer} {handle : UInt32} {c : ConnId} {conn : CMsgSrvConn}
    (h : s.findMsgSrvConnByHandle handle = some (c, conn)) :
    s.msgConnMap.find handle = some c ∧ s.conns.find c = some conn := by
  rw [MsgServer.findMsgSrvConnByHandle] at h
  split at h
  · cases h
  · rename_i d hmap
    obtain ⟨object, hconn, heq⟩ := Option.map_eq_some_iff.mp h
    cases heq
    exact ⟨hmap, hconn⟩

/-- What a login does not change in a connection before it succeeds. -/
structure SameLogin (conn conn' : CMsgSrvConn) : Prop where
  handle : conn'.handle = conn.handle
  userId : conn'.userId = conn.userId
  isOpen : conn'.isOpen = conn.isOpen
  shareKey : conn'.shareKey = conn.shareKey

/-! ## `AuthCaptchaReq` -/

section

variable (l : Libs) (env : Env) (fill : Nat → UInt8) {s : MsgServer} {c : ConnId}
  {conn : CMsgSrvConn} (p : CImPdu)

/-- The connection when a captcha was issued. -/
def issuedConn (conn : CMsgSrvConn) : CMsgSrvConn :=
  { conn with
    captcha := env.captcha
    prvKey := Toolbox.bytesToHex (captchaKey l env).1
    iv := bytesToHexString env.iv
    aad := bytesToHexString env.aad }

/-- It refuses a message it cannot parse, or issues a captcha, or throws half way. -/
theorem authCaptchaReq_spec (h : Live s c conn) :
    (∃ msgRsp, (l.proto.authCaptchaReq.parse p.body).2 = false ∧
      authCaptchaReq l env fill ⟨conn.handle, p⟩ s = (s, .ok (.sendMsg fill
        (l.proto.authCaptchaRes.serialize msgRsp) cidAuthCaptchaRes p.getSeqNum))) ∨
    (hexToString ((captchaKey l env).2.drop 2) = none ∧
      authCaptchaReq l env fill ⟨conn.handle, p⟩ s =
        ((s.setConn c { conn with captcha := env.captcha }).record (.issued c env.captcha),
          .error .invalidArgument)) ∨
    ∃ msgRsp, authCaptchaReq l env fill ⟨conn.handle, p⟩ s =
      ((s.setConn c (issuedConn l env conn)).record (.issued c env.captcha), .ok (.sendMsg fill
        (l.proto.authCaptchaRes.serialize msgRsp) cidAuthCaptchaRes p.getSeqNum)) := by
  rw [authCaptchaReq]
  dsimp only
  rw [h.find]
  dsimp only
  split
  · right
    split
    next hnone => exact .inl ⟨hnone, rfl⟩
    next address haddress =>
      right
      rw [setConn_record_setConn]
      exact ⟨_, rfl⟩
  · rename_i hparse
    exact .inl ⟨_, by simpa using hparse, rfl⟩

theorem authCaptchaReq_cases (h : Live s c conn) :
    (∃ msg, authCaptchaReq l env fill ⟨conn.handle, p⟩ s =
      (s, .ok (.sendMsg fill msg cidAuthCaptchaRes p.getSeqNum))) ∨
    ∃ conn' r, SameLogin conn conn' ∧ conn'.address = conn.address ∧
      conn'.captcha = env.captcha ∧
      authCaptchaReq l env fill ⟨conn.handle, p⟩ s =
        ((s.setConn c conn').record (.issued c env.captcha), r) ∧
      (r = .error .invalidArgument ∨
        ∃ msg, r = .ok (.sendMsg fill msg cidAuthCaptchaRes p.getSeqNum)) := by
  rcases authCaptchaReq_spec l env fill p h with ⟨msgRsp, -, heq⟩ | ⟨-, heq⟩ | ⟨msgRsp, heq⟩
  · exact .inl ⟨_, heq⟩
  · exact .inr ⟨{ conn with captcha := env.captcha }, _, ⟨rfl, rfl, rfl, rfl⟩, rfl, rfl, heq,
      .inl rfl⟩
  · exact .inr ⟨issuedConn l env conn, _, ⟨rfl, rfl, rfl, rfl⟩, rfl, rfl, heq, .inr ⟨_, rfl⟩⟩

/-! ## `AuthLoginReq` -/

/-- The connection when its claim has been noted. -/
def claimedConn (conn : CMsgSrvConn) (msg : AuthLoginReq) : CMsgSrvConn :=
  { conn with
    captcha := []
    address := msg.address.getD []
    clientVersion := msg.clientVersion.getD []
    clientType := msg.clientType
    onlineStatus := userStatOnline
    loginTime := env.now }

def claimed (s : MsgServer) (c : ConnId) (conn : CMsgSrvConn) (msg : AuthLoginReq) : MsgServer :=
  { s.setConn c (claimedConn env conn msg) with
    users := loginUser s.users c conn.handle (msg.address.getD []) }

/-- The request that `ServerLogin` is to answer. -/
def loginRequest (conn : CMsgSrvConn) (msg : AuthLoginReq) : ServerLoginReq :=
  { address := some (msg.address.getD [])
    captcha := some (msg.captcha.getD [])
    sign := some (msg.sign.getD [])
    attachData := some (CDbAttachData.encode ⟨attachTypeHandle, conn.handle, 0⟩) }

/-- It refuses the login, or notes the claim and passes it on. The captcha is the one that was
    issued, and it is used up. -/
theorem authLoginReq_cases (h : Live s c conn) :
    (∃ msgRsp, authLoginReq l env fill ⟨conn.handle, p⟩ s =
      (s, .ok (authLoginRes l fill msgRsp ⟨conn.handle, p⟩))) ∨
    ∃ msg, l.proto.authLoginReq.parse p.body = (msg, true) ∧ conn.captcha ≠ [] ∧
      msg.captcha.getD [] = conn.captcha ∧
      authLoginReq l env fill ⟨conn.handle, p⟩ s =
        (claimed env s c conn msg,
          .ok (.next fill (l.proto.serverLoginReq.serialize (loginRequest conn msg))
            cidServerLoginReq p.getSeqNum)) := by
  rw [authLoginReq, h.find]
  dsimp only
  split
  · exact Or.inl ⟨_, rfl⟩
  split
  · exact Or.inl ⟨_, rfl⟩
  rename_i hcaptcha
  split
  · exact Or.inl ⟨_, rfl⟩
  rename_i msg hparse
  split
  · exact Or.inl ⟨_, rfl⟩
  rename_i heq
  right
  refine ⟨msg, hparse, ?_, not_not.mp heq, rfl⟩
  intro hnil
  rw [hnil] at hcaptcha
  exact hcaptcha rfl

/-- `AuthLoginReq` itself refuses the login: the connection has an address already, or no captcha,
    or the message cannot be parsed or has another captcha. -/
def TurnedAway (l : Libs) (conn : CMsgSrvConn) (p : CImPdu) : Prop :=
  conn.address ≠ [] ∨ conn.captcha = [] ∨
    ∀ msg, l.proto.authLoginReq.parse p.body = (msg, true) → msg.captcha.getD [] ≠ conn.captcha

theorem authLoginReq_turnedAway (h : Live s c conn) (haway : TurnedAway l conn p) :
    ∃ e, e ≠ .noError ∧ ∀ env fill, authLoginReq l env fill ⟨conn.handle, p⟩ s =
      (s, .ok (authLoginRes l fill { error := some e } ⟨conn.handle, p⟩)) := by
  by_cases haddress : conn.address.length ≠ 0
  · refine ⟨.eLoginError, by simp, fun env fill => ?_⟩
    rw [authLoginReq, h.find]
    exact if_pos haddress
  by_cases hcaptcha : conn.captcha.length = 0
  · refine ⟨.eLoginError, by simp, fun env fill => ?_⟩
    rw [authLoginReq, h.find]
    dsimp only
    rw [if_neg haddress]
    exact if_pos hcaptcha
  obtain ⟨⟨msg, ok⟩, hparse⟩ : ∃ x, l.proto.authLoginReq.parse p.body = x := ⟨_, rfl⟩
  cases ok with
  | false =>
    refine ⟨.ePbParseError, by simp, fun env fill => ?_⟩
    rw [authLoginReq, h.find]
    dsimp only
    rw [if_neg haddress, if_neg hcaptcha, hparse]
  | true =>
    have hother : msg.captcha.getD [] ≠ conn.captcha := by
      rcases haway with hne | hnil | hother
      · exact absurd (fun hlen => hne (List.eq_nil_of_length_eq_zero hlen)) haddress
      · rw [hnil] at hcaptcha
        exact absurd rfl hcaptcha
      · exact hother msg hparse
    refine ⟨.eLoginError, by simp, fun env fill => ?_⟩
    rw [authLoginReq, h.find]
    dsimp only
    rw [if_neg haddress, if_neg hcaptcha, hparse]
    exact if_pos hother

theorem authLoginReq_passed (h : Live s c conn) (hpass : ¬ TurnedAway l conn p) :
    conn.address = [] ∧ conn.captcha ≠ [] ∧ ∃ msg, l.proto.authLoginReq.parse p.body = (msg, true) ∧
      msg.captcha.getD [] = conn.captcha ∧ authLoginReq l env fill ⟨conn.handle, p⟩ s =
        (claimed env s c conn msg,
          .ok (.next fill (l.proto.serverLoginReq.serialize (loginRequest conn msg))
            cidServerLoginReq p.getSeqNum)) := by
  unfold TurnedAway at hpass
  push Not at hpass
  obtain ⟨haddress, hcaptcha, msg, hparse, heq⟩ := hpass
  refine ⟨haddress, hcaptcha, msg, hparse, heq, ?_⟩
  have hlen : ¬ conn.captcha.length = 0 := fun hzero =>
    hcaptcha (List.eq_nil_of_length_eq_zero hzero)
  rw [authLoginReq, h.find]
  dsimp only
  rw [haddress, if_neg (not_not.mpr List.length_nil), if_neg hlen, hparse]
  exact if_neg (not_not.mpr heq)

end

/-! ## `ServerLogin` and `ServerLoginReq` -/

section

variable (secp : Secp256k1) (cache : Cache) {beyond : Bytes} (now : UInt32) {msg : ServerLoginReq}
  {login : LoginResult}

/-- It accepts what recovers to the address in the request, or leaves the user as it was. -/
theorem serverLogin_ok (h : serverLogin secp cache beyond now msg = .ok login) :
    (login.error = .noError ∧ login.user.address = some (msg.address.getD []) ∧
      ∃ pubKey33, recoverPubKeyAndAddressFromSig secp (signAt (msg.sign.getD []) beyond)
        (formatSignMsgData (msg.captcha.getD []) .ptp) = some (pubKey33, msg.address.getD [])) ∨
    ((login.error = .eLoginError ∨ login.error = .eSystem) ∧ login.user = {}) := by
  rw [serverLogin] at h
  dsimp only at h
  split at h
  · split at h
    · injection h with h
      subst h
      exact Or.inr ⟨Or.inl rfl, rfl⟩
    rename_i pubKey33 address hrecover
    split at h
    · injection h with h
      subst h
      exact Or.inr ⟨Or.inl rfl, rfl⟩
    rename_i haddress
    have haddress := not_not.mp haddress
    split at h
    · injection h with h
      subst h
      rw [haddress] at hrecover
      exact Or.inl ⟨rfl, congrArg some haddress, pubKey33, hrecover⟩
    · cases h
  · injection h with h
    subst h
    exact Or.inr ⟨Or.inr rfl, rfl⟩

theorem length_signAt (sign : Bytes) (h : 65 ≤ beyond.length) :
    (signAt sign beyond).length = 65 := by
  rw [signAt, List.length_take, List.length_append, List.length_cons]
  omega

end

section

variable (l : Libs) (env : Env) (fill : Nat → UInt8) (handle : UInt32) (p : CImPdu) (s : MsgServer)

/-- The PDU with the result of a login. -/
def loginResult (msgRsp : ServerLoginRes) : CResponse :=
  .next fill (l.proto.serverLoginRes.serialize msgRsp) cidServerLoginRes p.getSeqNum

theorem serverLoginReq_cases :
    (∃ msg, l.proto.serverLoginReq.parse p.body = (msg, false) ∧
      serverLoginReq l env fill ⟨handle, p⟩ s =
        (s.record (.refused .ePbParseError), .ok (loginResult l fill p
          { attachData := some (msg.attachData.getD []), error := some .ePbParseError }))) ∨
    (∃ fault, serverLoginReq l env fill ⟨handle, p⟩ s = (s, .error fault)) ∨
    ∃ msg login, l.proto.serverLoginReq.parse p.body = (msg, true) ∧
      serverLogin l.secp env.cache env.beyond env.now msg = .ok login ∧
      serverLoginReq l env fill ⟨handle, p⟩ s =
        (s.record (loginEvent env msg login.error), .ok (loginResult l fill p
          { attachData := some (msg.attachData.getD [])
            error := some login.error
            userInfo := some login.user })) := by
  rw [serverLoginReq]
  dsimp only
  split
  · rename_i msg hparse
    exact Or.inl ⟨msg, hparse, rfl⟩
  rename_i msg hparse
  split
  · rename_i fault hfault
    exact Or.inr (Or.inl ⟨fault, rfl⟩)
  · rename_i login hlogin
    exact Or.inr (Or.inr ⟨msg, login, hparse, hlogin, rfl⟩)

/-! ## `ServerLoginRes` -/

/-- The connection when a login has succeeded on it. -/
def openedConn (conn : CMsgSrvConn) (info : UserInfo) (sharedSecret : Bytes) : CMsgSrvConn :=
  { conn with
    shareKey := bytesToHexString sharedSecret
    userId := info.uid.getD 0
    isOpen := true }

theorem serverLoginRes_of_parse {m : ServerLoginRes}
    (h : l.proto.serverLoginRes.parse p.body = (m, false)) :
    serverLoginRes l env fill ⟨handle, p⟩ s =
      (s, .ok (authLoginRes l fill { error := some .ePbParseError } ⟨handle, p⟩)) := by
  rw [serverLoginRes]
  dsimp only
  rw [h]

theorem serverLoginRes_of_attach {m : ServerLoginRes}
    (h : l.proto.serverLoginRes.parse p.body = (m, true)) (hattach : m.attachData.getD [] = []) :
    ∃ e, serverLoginRes l env fill ⟨handle, p⟩ s = (s, .error (.threw e)) := by
  obtain ⟨e, he⟩ : ∃ e, CDbAttachData.decode [] = .error e := ⟨_, rfl⟩
  refine ⟨e, ?_⟩
  rw [serverLoginRes]
  dsimp only
  rw [h]
  dsimp only
  rw [hattach, he]

/-- It replies and changes nothing, or does not return, or opens the connection it finds for the
    user that the message names. -/
theorem serverLoginRes_cases :
    (∃ msgRsp, serverLoginRes l env fill ⟨handle, p⟩ s =
      (s, .ok (authLoginRes l fill msgRsp ⟨handle, p⟩))) ∨
    (∃ fault, serverLoginRes l env fill ⟨handle, p⟩ s = (s, .error fault) ∧
      (fault = .nullConn → s.findMsgSrvConnByHandle handle = none)) ∨
    ∃ msg c conn user sharedSecret msgRsp, l.proto.serverLoginRes.parse p.body = (msg, true) ∧
      s.findMsgSrvConnByHandle handle = some (c, conn) ∧
      serverLoginRes l env fill ⟨handle, p⟩ s =
        (openConn s c conn user handle (msg.userInfo.getD {}) sharedSecret,
          .ok (authLoginRes l fill msgRsp ⟨handle, p⟩)) := by
  rw [serverLoginRes]
  dsimp only
  split
  · exact Or.inl ⟨_, rfl⟩
  rename_i msg hparse
  split
  · exact Or.inr (Or.inl ⟨_, rfl, fun h => by cases h⟩)
  split
  · exact Or.inl ⟨_, rfl⟩
  rename_i user huser
  split
  · rename_i hfind
    exact Or.inr (Or.inl ⟨_, rfl, fun _ => hfind⟩)
  rename_i c conn hfind
  split
  · exact Or.inl ⟨_, rfl⟩
  split
  · exact Or.inl ⟨_, rfl⟩
  split
  · exact Or.inr (Or.inl ⟨_, rfl, fun h => by cases h⟩)
  · exact Or.inl ⟨_, rfl⟩
  · rename_i sharedSecret hsecret
    exact Or.inr (Or.inr ⟨msg, c, conn, user, sharedSecret, _, hparse, hfind, rfl⟩)

end

end Server
end Proof
end PtpCore
