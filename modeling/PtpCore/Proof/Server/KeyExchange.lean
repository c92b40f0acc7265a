import PtpCore.Proof.Global.Helpers
import PtpCore.Proof.Net.Signing
import PtpCore.Proof.Server.LoginError
import PtpCore.Server.ProxyTask

/-!
# The keys of a connection

What the server does with the PDUs of one honest client, whose private key is that of a phrase. A
captcha request replaces the key, the iv and the associated data of the connection, and the answer
carries all three. Everything else leaves them as they are, and a login that succeeds computes the
shared key from what is there then.
-/

namespace PtpCore
namespace Proof
namespace Server

open Lib Proto PtpCore.Crypto
open PtpCore.Global PtpCore.Server PtpCore.Wallet PtpCore.Net
open PtpCore.Proof.Global PtpCore.Proof.Net

/-! ## PDUs that say what they are -/

/-- The command id and the body of a PDU whose message was written, in memory and on the wire. -/
structure Wrote (p : CImPdu) (cid : UInt16) (body : Bytes) : Prop where
  hasHeader : CImPdu.HasHeader p
  commandId : p.getCommandId = cid
  wireId : (CImPdu.headerOf p.buf.contents).commandId = cid
  body : p.body = body

theorem wrote_msgPdu (fill : Nat → UInt8) {data : Bytes} (h : data.length < 2 ^ 31)
    (cid seq : UInt16) : Wrote (msgPdu fill (some data) cid seq) cid data := by
  have hdata : ∀ {b}, some data = some b → b.length < 2 ^ 31 := fun heq => Option.some.inj heq ▸ h
  obtain ⟨hheader, hcid, -, hbody⟩ := msgPdu_spec fill cid seq hdata
  obtain ⟨-, -, -, hwire, -⟩ := CImPdu.setPBMsgBuf_spec fill (ok_blankPdu cid seq) h
  refine ⟨hheader, hcid, ?_, hbody⟩
  rw [msgPdu_some fill h, hwire]
  rfl

section

variable {p q : CImPdu} {cid : UInt16} {body : Bytes}

theorem Wrote.setReversed (h : Wrote p cid body) (v : UInt32) :
    Wrote (p.setReversed v) cid body := by
  have h16 : 12 + (CByteStream.writeUint32 v).length ≤ 16 := Nat.le_refl 16
  obtain ⟨hcid, hbody⟩ := setReversed_spec h.hasHeader v
  refine ⟨h.hasHeader.poke h16, hcid.trans h.commandId, ?_, hbody.trans h.body⟩
  change (CImPdu.headerOf (p.poke 12 (CByteStream.writeUint32 v)).buf.contents).commandId = cid
  rw [h.hasHeader.contents_poke h16, CImPdu.headerOf_setReversed h.hasHeader.length_contents]
  exact h.wireId

theorem Wrote.setFlag (h : Wrote p cid body) (v : UInt16) : Wrote (p.setFlag v) cid body := by
  have h16 : 6 + (CByteStream.writeUint16 v).length ≤ 16 := by simp
  refine ⟨h.hasHeader.poke h16, h.commandId, ?_, ?_⟩
  · change (CImPdu.headerOf (p.poke 6 (CByteStream.writeUint16 v)).buf.contents).commandId = cid
    rw [h.hasHeader.contents_poke h16, CImPdu.headerOf_setFlag h.hasHeader.length_contents]
    exact h.wireId
  · rw [← h.body, CImPdu.body_eq h.hasHeader]
    change (p.poke 6 (CByteStream.writeUint16 v)).body = _
    rw [CImPdu.body_eq (h.hasHeader.poke h16)]
    exact h.hasHeader.drop_poke h16

/-- It is read so at the other end. -/
theorem Wrote.delivered (h : Wrote p cid body) (hd : Delivered p q) :
    q.getCommandId = cid ∧ q.body = body := by
  refine ⟨?_, hd.body.trans h.body⟩
  rw [CImPdu.getCommandId, hd.header]
  exact h.wireId

end

/-! ## What is assumed of the curve -/

/-- `pub` gives the public key of a private key. A signature recovers to the key of its signer, a
    key that was serialised is parsed, and two sides compute the same secret; all of it for keys
    that phrases have. -/
structure KeyLaws (c : Secp256k1) (p : HDPrimitives) (pub : Bytes → c.PubKey) : Prop where
  keccak256 : c.keccak256 = p.keccak256
  length_keccak256 : ∀ b, (c.keccak256 b).length = 32
  uncompressed : ∀ m, c.serializeUncompressed (pub (phraseKey p m)) =
    0x04 :: p.publicKey64 (phraseKey p m)
  length_compressed : ∀ m, (c.serializeCompressed (pub (phraseKey p m))).length = 33
  parse_compressed : ∀ m, c.parse (c.serializeCompressed (pub (phraseKey p m))) =
    some (pub (phraseKey p m))
  length_sign : ∀ m hash, (c.sign hash (phraseKey p m)).1.length = 64
  recId_sign : ∀ m hash, (c.sign hash (phraseKey p m)).2 < 4
  recover_sign : ∀ m hash, c.recover (c.sign hash (phraseKey p m)).1
    (c.sign hash (phraseKey p m)).2.toNat hash = some (pub (phraseKey p m))
  ecdh_comm : ∀ m m', c.ecdh (pub (phraseKey p m)) (phraseKey p m') =
    c.ecdh (pub (phraseKey p m')) (phraseKey p m)

section

variable {secp : Secp256k1} {hd : HDPrimitives} {pub : Bytes → secp.PubKey}

/-- The signature over a captcha with the key of a phrase. -/
def ownSign (secp : Secp256k1) (hd : HDPrimitives) (m captcha : Bytes) : Bytes :=
  ecdsaSignRecoverable secp (formatSignMsgData captcha .ptp) (phraseKey hd m)

theorem length_ecdsaSignRecoverable {msgData prvKey : Bytes}
    (h : (secp.sign (secp.keccak256 msgData) prvKey).1.length = 64) :
    (ecdsaSignRecoverable secp msgData prvKey).length = 65 := by
  change (_ ++ [_]).length = 65
  rw [List.length_append, h]
  rfl

theorem KeyLaws.length_ownSign (h : KeyLaws secp hd pub) (m captcha : Bytes) :
    (ownSign secp hd m captcha).length = 65 :=
  length_ecdsaSignRecoverable (h.length_sign m _)

/-- The signature recovers to the public key, and to the address of the phrase. -/
theorem KeyLaws.recover_ownSign (h : KeyLaws secp hd pub) (m captcha : Bytes) :
    recoverPubKeyAndAddressFromSig secp (ownSign secp hd m captcha)
      (formatSignMsgData captcha .ptp) =
      some (secp.serializeCompressed (pub (phraseKey hd m)),
        bytesToHexString (HDKey.ecdsaGetPublicAddress hd (phraseKey hd m))) := by
  have hlen := h.length_sign m (secp.keccak256 (formatSignMsgData captcha .ptp))
  have hid := h.recId_sign m (secp.keccak256 (formatSignMsgData captcha .ptp))
  change recoverPubKeyAndAddressFromSig secp (_ ++ [_]) _ = _
  rw [recoverPubKeyAndAddressFromSig, List.take_left' hlen,
    List.getD_append_right _ _ _ _ (Nat.le_of_eq hlen), hlen, Nat.sub_self, List.getD_cons_zero,
    recoveryId_of_lt hid, h.recover_sign]
  dsimp only
  rw [h.uncompressed, List.drop_one, List.tail_cons, pubKeyToAddress, h.keccak256]
  rfl

theorem KeyLaws.signAt_ownSign (h : KeyLaws secp hd pub) (m captcha beyond : Bytes) :
    signAt (ownSign secp hd m captcha) beyond = ownSign secp hd m captcha :=
  List.take_left' (h.length_ownSign m captcha)

theorem KeyLaws.length_address (h : KeyLaws secp hd pub) (key : Bytes) :
    (HDKey.ecdsaGetPublicAddress hd key).length = 20 := by
  rw [HDKey.ecdsaGetPublicAddress, ← h.keccak256, List.length_drop, h.length_keccak256]

end

/-! ## Users that fit -/

/-- How long the texts of a user are, all together. -/
def userLength (u : UserInfo) : Nat :=
  (u.address.getD []).length + (u.pubKey.getD []).length + (u.avatar.getD []).length +
    (u.userName.getD []).length + (u.nickName.getD []).length + (u.signInfo.getD []).length +
    (u.firstName.getD []).length + (u.lastName.getD []).length

theorem length_stringField_le (num : Nat) (v : Option Bytes) :
    (Wire.encode (stringField num v)).length ≤ 20 + (v.getD []).length := by
  have h := Wire.length_encode_opt_le num (v.map .bytes)
  cases v with
  | none => exact h
  | some b => exact h

theorem length_numberField_le (num : Nat) (v : Option Nat) :
    (Wire.encode (numberField num v)).length ≤ 20 := by
  have h := Wire.length_encode_opt_le num (v.map .varint)
  cases v with
  | none => exact h
  | some n => exact h

theorem length_messageField_le {M : Type} [Message M] (num : Nat) (m : M) :
    (Wire.encode (messageField num (some m))).length ≤
      20 + (Wire.encode (Message.fields m)).length :=
  Wire.length_encode_opt_le num (some (.bytes (Wire.encode (Message.fields m))))

theorem length_userInfo_le (u : UserInfo) :
    (Wire.encode (Message.fields u)).length ≤ 240 + userLength u := by
  have h1 := length_stringField_le 1 u.address
  have h2 := length_stringField_le 2 u.pubKey
  have h3 := length_stringField_le 3 u.avatar
  have h4 := length_numberField_le 4 (u.status.map UInt32.toNat)
  have h5 := length_stringField_le 5 u.userName
  have h6 := length_stringField_le 6 u.nickName
  have h7 := length_stringField_le 7 u.signInfo
  have h8 := length_numberField_le 8 (u.uid.map UInt32.toNat)
  have h9 := length_stringField_le 9 u.firstName
  have h10 := length_stringField_le 10 u.lastName
  have h11 := length_numberField_le 11 (u.loginTime.map UInt32.toNat)
  have h12 := length_numberField_le 12 (u.isOnline.map Bool.toNat)
  simp only [Message.fields, Wire.encode_append, List.length_append]
  unfold userLength
  omega

/-- The texts of a user that the cache answers are not too long for a reply. -/
def CacheFits (cache : Cache) : Prop :=
  ∀ args, ((cache.exec args).map List.length).sum < 2 ^ 29

theorem length_cString_le (b : Bytes) : (cString b).length ≤ b.length :=
  (List.takeWhile_prefix _).length_le

theorem length_error_lt (e : ERR) :
    (Wire.encode (Message.fields ({ error := some e } : AuthLoginRes))).length < 2 ^ 31 := by
  cases e <;> decide

/-- The reply of a login, with the user it is about. -/
theorem length_authLoginRes_le (e : ERR) {u : UserInfo} (h : userLength u < 2 ^ 30) :
    (Wire.encode (Message.fields ({ error := some e, userInfo := some (replyUser u) } :
      AuthLoginRes))).length < 2 ^ 31 := by
  have hreply : userLength (replyUser u) ≤ userLength u := by
    unfold userLength replyUser
    simp only [Option.getD_some, Option.getD_none, List.length_nil]
    omega
  have huser := length_userInfo_le (replyUser u)
  have hmsg := length_messageField_le 5 (replyUser u)
  have herr := length_numberField_le 2 ((some e).map ERR.code)
  simp only [Message.fields, Wire.encode_append, List.length_append] at huser hmsg herr ⊢
  omega

/-- The result of a login, as it goes from one server to the other. -/
theorem length_serverLoginRes_le (e : ERR) {u : UserInfo} (h : userLength u < 2 ^ 30)
    {attach : Bytes} (hattach : attach.length ≤ 12) :
    (Wire.encode (Message.fields ({ attachData := some attach, error := some e, userInfo := some u }
      : ServerLoginRes))).length < 2 ^ 31 := by
  have huser := length_userInfo_le u
  have hmsg := length_messageField_le 2 u
  have herr := length_numberField_le 1 ((some e).map ERR.code)
  have hatt := length_stringField_le 20 (some attach)
  rw [Option.getD_some] at hatt
  simp only [Message.fields, Wire.encode_append, List.length_append] at huser hmsg herr hatt ⊢
  omega

/-! ## The client's own messages -/

section

variable {secp : Secp256k1} {hd : HDPrimitives} {pub : Bytes → secp.PubKey} {m : Bytes}

/-- A result that says nothing of another key: no user, or the client with its public key. -/
def OwnUser (pub : Bytes → secp.PubKey) (hd : HDPrimitives) (m : Bytes) (u : UserInfo) : Prop :=
  u.pubKey = some (secp.serializeCompressed (pub (phraseKey hd m))) ∧ userLength u < 2 ^ 30

/-- `ServerLogin` on a signature of the client: it finds the client, or fills nothing in. -/
theorem serverLogin_own (h : KeyLaws secp hd pub) {cache : Cache} (hfits : CacheFits cache)
    {beyond : Bytes} {now : UInt32} {msg : ServerLoginReq} {login : LoginResult}
    (hsign : msg.sign.getD [] = ownSign secp hd m (msg.captcha.getD []))
    (hlogin : serverLogin secp cache beyond now msg = .ok login) :
    (Message.isInitialized login.user = true ∧ OwnUser pub hd m login.user) ∨ login.user = {} := by
  have hcompressed := h.length_compressed m
  rw [serverLogin] at hlogin
  dsimp only at hlogin
  split at hlogin
  · rw [hsign, h.signAt_ownSign, h.recover_ownSign] at hlogin
    dsimp only at hlogin
    split at hlogin
    · cases hlogin
      exact .inr rfl
    split at hlogin
    · rename_i avatar nickName userName signInfo firstName lastName loginTime status rest hexec
      left
      cases hlogin
      refine ⟨rfl, rfl, ?_⟩
      have hsum := hfits (loginMget (loginUserId cache now
        (secp.serializeCompressed (pub (phraseKey hd m)))
        (bytesToHexString (HDKey.ecdsaGetPublicAddress hd (phraseKey hd m)))).1)
      rw [hexec] at hsum
      simp only [List.map_cons, List.sum_cons] at hsum
      have h1 := length_cString_le avatar
      have h2 := length_cString_le nickName
      have h3 := length_cString_le userName
      have h4 := length_cString_le signInfo
      have h5 := length_cString_le firstName
      have h6 := length_cString_le lastName
      have haddr : (bytesToHexString (HDKey.ecdsaGetPublicAddress hd (phraseKey hd m))).length =
          42 := by
        rw [bytesToHexString, length_bytesToHex, h.length_address]
      simp only [userLength, Option.getD_some, hcompressed, haddr]
      omega
    · cases hlogin
  · cases hlogin
    exact .inr rfl

/-- The key of a connection is that of a phrase, if it has one. -/
def HasKey (hd : HDPrimitives) (conn : CMsgSrvConn) : Prop :=
  conn.prvKey = [] ∨ ∃ m', conn.prvKey = bytesToHexString (phraseKey hd m')

/-- An open connection has the secret of its key and the client's. -/
def Shares (pub : Bytes → secp.PubKey) (hd : HDPrimitives) (m : Bytes) (conn : CMsgSrvConn) :
    Prop :=
  conn.isOpen = true → ∃ m' secret, conn.prvKey = bytesToHexString (phraseKey hd m') ∧
    secp.ecdh (pub (phraseKey hd m)) (phraseKey hd m') = some secret ∧
    conn.shareKey = bytesToHexString secret

/-- A PDU that the client does not take for the answer to a captcha request. -/
def Quiet (p : CImPdu) : Prop :=
  (CImPdu.headerOf p.buf.contents).commandId ≠ cidAuthCaptchaRes

theorem Wrote.quiet {p : CImPdu} {cid : UInt16} {body : Bytes} (h : Wrote p cid body)
    (hne : cid ≠ cidAuthCaptchaRes) : Quiet p := by
  rw [Quiet, h.wireId]
  exact hne

/-- A login request with a signature of the client. -/
structure OwnRequest (secp : Secp256k1) (hd : HDPrimitives) (m : Bytes) (msg : ServerLoginReq) :
    Prop where
  sign : msg.sign.getD [] = ownSign secp hd m (msg.captcha.getD [])
  attach : (msg.attachData.getD []).length ≤ 12

/-- A request to the business server that the client asked for. -/
structure OwnPending (proto : Library) (secp : Secp256k1) (hd : HDPrimitives) (m : Bytes)
    (handle : UInt32) (request : Pending) : Prop where
  msg : ∃ msg body, Wrote request.pdu cidServerLoginReq body ∧
    proto.serverLoginReq.parse body = (msg, true) ∧ OwnRequest secp hd m msg
  handle : ∀ q, Delivered request.pdu q → q.getReversed = handle

variable (proto : Library)

/-- From `s` to `t` the key, the iv and the associated data of `c` stay, and the client hears
    nothing about them. -/
structure Quietly (pub : Bytes → secp.PubKey) (hd : HDPrimitives) (m : Bytes) (c : ConnId)
    (conn : CMsgSrvConn) (s : MsgServer) (conn' : CMsgSrvConn) (t : MsgServer) : Prop where
  live : Live t c conn'
  handle : conn'.handle = conn.handle
  prvKey : conn'.prvKey = conn.prvKey
  iv : conn'.iv = conn.iv
  aad : conn'.aad = conn.aad
  shares : Shares pub hd m conn → Shares pub hd m conn'
  log : ∃ es, t.log = s.log ++ es ∧ ∀ p, .sent c p ∈ es → Quiet p
  pending : ∃ ps, t.pending = s.pending ++ ps ∧
    ∀ request ∈ ps, OwnPending proto secp hd m conn.handle request

variable {proto} {c : ConnId} {conn conn' conn'' : CMsgSrvConn} {s t u : MsgServer}

/-- The connection stays as it is, and so do the requests that wait. -/
theorem quietly_same (hlive : Live t c conn) (hpending : t.pending = s.pending) {es : List Event}
    (hlog : t.log = s.log ++ es) (hquiet : ∀ p, .sent c p ∈ es → Quiet p) :
    Quietly proto pub hd m c conn s conn t where
  live := hlive
  handle := rfl
  prvKey := rfl
  iv := rfl
  aad := rfl
  shares := id
  log := ⟨es, hlog, hquiet⟩
  pending := ⟨[], by rw [hpending, List.append_nil], nofun⟩

theorem quietly_refl (h : Live s c conn) : Quietly proto pub hd m c conn s conn s :=
  quietly_same h rfl (List.append_nil _).symm nofun

theorem Quietly.trans (h : Quietly proto pub hd m c conn s conn' t)
    (h' : Quietly proto pub hd m c conn' t conn'' u) :
    Quietly proto pub hd m c conn s conn'' u where
  live := h'.live
  handle := h'.handle.trans h.handle
  prvKey := h'.prvKey.trans h.prvKey
  iv := h'.iv.trans h.iv
  aad := h'.aad.trans h.aad
  shares := fun hs => h'.shares (h.shares hs)
  log := by
    obtain ⟨es, hes, hquiet⟩ := h.log
    obtain ⟨es', hes', hquiet'⟩ := h'.log
    refine ⟨es ++ es', by rw [hes', hes, List.append_assoc], ?_⟩
    intro p hp
    rcases List.mem_append.mp hp with hp | hp
    · exact hquiet p hp
    · exact hquiet' p hp
  pending := by
    obtain ⟨ps, hps, hown⟩ := h.pending
    obtain ⟨ps', hps', hown'⟩ := h'.pending
    refine ⟨ps ++ ps', by rw [hps', hps, List.append_assoc], ?_⟩
    intro request hmem
    rcases List.mem_append.mp hmem with hmem | hmem
    · exact hown request hmem
    · exact h.handle ▸ hown' request hmem

theorem quietly_record (h : Live s c conn) {e : Event} (he : ∀ p, e = .sent c p → Quiet p) :
    Quietly proto pub hd m c conn s conn (s.record e) :=
  quietly_same (h.record e) rfl rfl fun p hp => he p (List.mem_singleton.mp hp).symm

theorem quietly_sendPdu (h : Live s c conn) {p : CImPdu} (hp : Quiet p) :
    Quietly proto pub hd m c conn s conn (s.sendPdu c p) := by
  apply quietly_record h
  intro q hq
  cases hq
  exact hp

/-! ## The result of a login -/

/-- A result that is not parsed, or that is about the client. -/
def OwnResult (proto : Library) (pub : Bytes → secp.PubKey) (hd : HDPrimitives) (m : Bytes)
    (q : CImPdu) : Prop :=
  (∃ msg, proto.serverLoginRes.parse q.body = (msg, false)) ∨
    ∃ msg, proto.serverLoginRes.parse q.body = (msg, true) ∧
      OwnUser pub hd m (msg.userInfo.getD {})

section

variable {env : Env} {async : Bool} {k : Nat} {q : CImPdu}

theorem quietly_authLoginRes (hlive : Live s c conn) {msgRsp : AuthLoginRes}
    (hinit : Message.isInitialized msgRsp = true)
    (hlen : (Wire.encode (Message.fields msgRsp)).length < 2 ^ 31)
    {again : CImPdu → MsgServer → MsgServer × Option Fault} {fill : Nat → UInt8} {handle : UInt32}
    {request : CRequest} :
    Quietly proto pub hd m c conn s conn (respond (.ofHD proto secp hd) env async k again c handle
      (authLoginRes (.ofHD proto secp hd) fill msgRsp request) s).1 := by
  have hdata := proto.authLoginRes.serialize_eq hinit hlen
  change Quietly proto pub hd m c conn s conn (respond _ env async k again c handle
    (.sendMsg fill (proto.authLoginRes.serialize msgRsp) _ _) s).1
  rw [hdata]
  rcases respond_sendMsg (.ofHD proto secp hd) env async fill _ _ _ with h | h
  · rw [h]
    exact quietly_refl hlive
  · rw [h]
    apply quietly_sendPdu hlive
    exact ((wrote_msgPdu fill hlen _ _).setReversed 0).quiet (by decide)

/-- The connection is opened with the secret of its key and the client's. -/
theorem quietly_openConn (hlive : Live s c conn) {m' secret : Bytes}
    (hkey : conn.prvKey = bytesToHexString (phraseKey hd m'))
    (hsecret : secp.ecdh (pub (phraseKey hd m)) (phraseKey hd m') = some secret) (user : UserRef)
    (info : UserInfo) :
    Quietly proto pub hd m c conn s (openedConn conn info secret)
      (openConn s c conn user conn.handle info secret) where
  live := ⟨Assoc.find_set_self _ _ _, hlive.map⟩
  handle := rfl
  prvKey := rfl
  iv := rfl
  aad := rfl
  shares := fun _ _ => ⟨m', secret, hkey, hsecret, rfl⟩
  log := ⟨[.opened c (info.address.getD []) conn.address], rfl, by simp⟩
  pending := ⟨[], (List.append_nil _).symm, nofun⟩

theorem quietly_result (h : KeyLaws secp hd pub) (hlive : Live s c conn) (hkey : HasKey hd conn)
    (hcid : q.getCommandId = cidServerLoginRes) (hown : OwnResult proto pub hd m q) :
    ∃ conn', Quietly proto pub hd m c conn s conn'
      (handleNextResponse (.ofHD proto secp hd) env async (k + 1) c q s).1 := by
  rw [handleNext_of_handler _ env hlive.object (getHandler_serverLoginRes hcid)
    fun _ h => absurd (hcid.symm.trans h) (by decide), Action.run, serverLoginRes]
  dsimp only
  rcases hown with ⟨msg, hparse⟩ | ⟨msg, hparse, hpub, hlen⟩
  · have hparse' : (Libs.ofHD proto secp hd).proto.serverLoginRes.parse q.body = (msg, false) :=
      hparse
    rw [hparse']
    exact ⟨conn, quietly_authLoginRes hlive rfl (length_error_lt _)⟩
  have hparse' : (Libs.ofHD proto secp hd).proto.serverLoginRes.parse q.body = (msg, true) := hparse
  rw [hparse']
  dsimp only
  cases hattach : CDbAttachData.decode (msg.attachData.getD []) with
  | error e => exact ⟨conn, quietly_refl hlive⟩
  | ok attach =>
    dsimp only
    cases huser : s.users.getImUserByAddress ((msg.userInfo.getD {}).address.getD []) with
    | none => exact ⟨conn, quietly_authLoginRes hlive rfl (length_error_lt _)⟩
    | some user =>
      have hfail : ∀ e : ERR, Quietly proto pub hd m c conn s conn (respond (.ofHD proto secp hd)
          env async k (handleNextResponse (.ofHD proto secp hd) env async k c) c conn.handle
          (authLoginRes (.ofHD proto secp hd) (env.heap (2 * k))
            { error := some e, userInfo := some (replyUser (msg.userInfo.getD {})) }
            ⟨conn.handle, q⟩) s).1 :=
        fun e => quietly_authLoginRes hlive rfl (length_authLoginRes_le e hlen)
      dsimp only
      rw [hlive.find]
      dsimp only
      rcases hkey with hnil | ⟨m', hprv⟩
      · rw [hnil]
        exact ⟨conn, hfail _⟩
      have hne : ¬ conn.prvKey.isEmpty = true := by
        rw [hprv]
        exact Bool.false_ne_true
      have hpub33 : ((msg.userInfo.getD {}).pubKey.getD [] ++ 0 :: env.beyond).take 33 =
          secp.serializeCompressed (pub (phraseKey hd m)) := by
        rw [hpub, Option.getD_some]
        exact List.take_left' (h.length_compressed m)
      have hparse33 : (Libs.ofHD proto secp hd).secp.parse
          (((msg.userInfo.getD {}).pubKey.getD [] ++ 0 :: env.beyond).take 33) =
          some (pub (phraseKey hd m)) := by
        rw [hpub33]
        exact h.parse_compressed m
      have hshare : ecdhCreateShareKey (Libs.ofHD proto secp hd).secp (pub (phraseKey hd m))
          conn.prvKey = some (secp.ecdh (pub (phraseKey hd m)) (phraseKey hd m')) := by
        change (hexToString (conn.prvKey.drop 2)).map _ = _
        rw [hprv, bytesToHexString, hexToString_drop_bytesToHex]
        rfl
      rw [if_neg hne, hparse33]
      dsimp only
      rw [hshare]
      cases hsecret : secp.ecdh (pub (phraseKey hd m)) (phraseKey hd m') with
      | none => exact ⟨conn, hfail _⟩
      | some secret =>
        have hopen : Quietly proto pub hd m c conn s _ _ :=
          quietly_openConn hlive hprv hsecret user (msg.userInfo.getD {})
        exact ⟨_, hopen.trans (quietly_authLoginRes hopen.live rfl (length_authLoginRes_le _ hlen))⟩

/-! ## The request of a login -/

/-- The message with the result of a login of the client. -/
structure OwnRsp (pub : Bytes → secp.PubKey) (hd : HDPrimitives) (m : Bytes)
    (msgRsp : ServerLoginRes) : Prop where
  length : (Wire.encode (Message.fields msgRsp)).length < 2 ^ 31
  user : Message.isInitialized msgRsp = false ∨ OwnUser pub hd m (msgRsp.userInfo.getD {})

/-- However it was passed on, it is a result that is not parsed or about the client. -/
theorem OwnRsp.result {msgRsp : ServerLoginRes} (h : OwnRsp pub hd m msgRsp)
    (hbody : q.body = (proto.serverLoginRes.serialize msgRsp).getD []) :
    OwnResult proto pub hd m q := by
  rw [OwnResult, hbody]
  rcases parse_passed proto.serverLoginRes msgRsp with hparse | ⟨-, hparse⟩
  · rcases h.user with hinit | huser
    · rw [hinit] at hparse
      exact .inl ⟨_, hparse⟩
    · cases hinit : Message.isInitialized msgRsp with
      | false =>
        rw [hinit] at hparse
        exact .inl ⟨_, hparse⟩
      | true =>
        rw [hinit] at hparse
        exact .inr ⟨_, hparse, huser⟩
  · exact .inl ⟨_, hparse⟩

/-- `ServerLoginReq` on a request of the client. -/
theorem serverLoginReq_own (h : KeyLaws secp hd pub) (hfits : CacheFits env.cache)
    {msg : ServerLoginReq} (hparse : proto.serverLoginReq.parse q.body = (msg, true))
    (hown : OwnRequest secp hd m msg) (fill : Nat → UInt8) (handle : UInt32) (s : MsgServer) :
    (∃ fault, serverLoginReq (.ofHD proto secp hd) env fill ⟨handle, q⟩ s = (s, .error fault)) ∨
    ∃ e msgRsp, (∀ c p, e ≠ .sent c p) ∧ OwnRsp pub hd m msgRsp ∧
      serverLoginReq (.ofHD proto secp hd) env fill ⟨handle, q⟩ s =
        (s.record e, .ok (loginResult (.ofHD proto secp hd) fill q msgRsp)) := by
  rcases serverLoginReq_cases (.ofHD proto secp hd) env fill handle q s with
    ⟨msg', hparse', -⟩ | ⟨fault, heq⟩ | ⟨msg', login, hparse', hlogin, heq⟩
  · cases hparse.symm.trans hparse'
  · exact .inl ⟨fault, heq⟩
  · cases hparse.symm.trans hparse'
    refine .inr ⟨_, _, ?_, ?_, heq⟩
    · intro c p hsent
      unfold loginEvent at hsent
      split at hsent
      · cases hsent
      · cases hsent
    · have huser := serverLogin_own h hfits hown.sign hlogin
      have hsmall : userLength login.user < 2 ^ 30 := by
        rcases huser with ⟨-, -, hlen⟩ | hnone
        · exact hlen
        · rw [hnone]
          decide
      refine ⟨length_serverLoginRes_le _ hsmall hown.attach, ?_⟩
      rcases huser with ⟨-, huser⟩ | hnone
      · exact .inr huser
      · left
        rw [hnone]
        rfl

theorem quietly_request (h : KeyLaws secp hd pub) (hfits : CacheFits env.cache)
    (hlive : Live s c conn) (hkey : HasKey hd conn) (hcid : q.getCommandId = cidServerLoginReq)
    {msg : ServerLoginReq} (hparse : proto.serverLoginReq.parse q.body = (msg, true))
    (hown : OwnRequest secp hd m msg) :
    ∃ conn', Quietly proto pub hd m c conn s conn'
      (handleNextResponse (.ofHD proto secp hd) env false (k + 2) c q s).1 := by
  have haction : getHandler q.getCommandId = some .serverLoginReq := by
    rw [hcid]
    rfl
  have hopen : false = true → q.getCommandId = cidAuthLoginReq → env.loginConnOpen = true := nofun
  rw [handleNext_of_handler _ env hlive.object haction hopen, Action.run]
  rcases serverLoginReq_own h hfits hparse hown (env.heap (2 * (k + 1))) conn.handle s with
    ⟨fault, heq⟩ | ⟨e, msgRsp, hsent, hrsp, heq⟩
  · rw [heq]
    exact ⟨conn, quietly_refl hlive⟩
  · have hrecord : Quietly proto pub hd m c conn s conn (s.record e) :=
      quietly_record hlive fun p hp => absurd hp (hsent c p)
    rw [heq]
    refine respond_result (.ofHD proto secp hd) env
      (P := fun t => ∃ conn', Quietly proto pub hd m c conn s conn' t) ⟨conn, hrecord⟩ ?_ _ _
    intro q' hcid' hbody'
    obtain ⟨conn', hresult⟩ := quietly_result h hrecord.live hkey hcid' (hrsp.result hbody')
    exact ⟨conn', hrecord.trans hresult⟩

/-! ## What the client sends -/

/-- A login request of the client. -/
structure OwnLogin (proto : Library) (secp : Secp256k1) (hd : HDPrimitives) (m : Bytes)
    (q : CImPdu) : Prop where
  commandId : q.getCommandId = cidAuthLoginReq
  msg : ∃ msg, proto.authLoginReq.parse q.body = (msg, true) ∧
    msg.sign.getD [] = ownSign secp hd m (msg.captcha.getD []) ∧
    (msg.address.getD []).length ≤ 42 ∧ (msg.captcha.getD []).length ≤ 6

theorem length_encode_attach (a : CDbAttachData) : (CDbAttachData.encode a).length = 12 := by
  simp [CDbAttachData.encode]

theorem length_loginRequest_lt (h : KeyLaws secp hd pub) (conn : CMsgSrvConn) {msg : AuthLoginReq}
    (hsign : msg.sign.getD [] = ownSign secp hd m (msg.captcha.getD []))
    (haddress : (msg.address.getD []).length ≤ 42) (hcaptcha : (msg.captcha.getD []).length ≤ 6) :
    (Wire.encode (Message.fields (loginRequest conn msg))).length < 2 ^ 31 := by
  have h1 := length_stringField_le 1 (loginRequest conn msg).address
  have h2 := length_stringField_le 2 (loginRequest conn msg).captcha
  have h3 := length_stringField_le 3 (loginRequest conn msg).sign
  have h4 := length_stringField_le 4 (loginRequest conn msg).attachData
  have hlen := h.length_ownSign m (msg.captcha.getD [])
  simp only [loginRequest, Option.getD_some, hsign, hlen, length_encode_attach] at h1 h2 h3 h4
  simp only [loginRequest, Message.fields, Wire.encode_append, List.length_append]
  rw [hsign]
  omega

theorem quietly_claimed (hlive : Live s c conn) (msg : AuthLoginReq) :
    Quietly proto pub hd m c conn s (claimedConn env conn msg) (claimed env s c conn msg) where
  live := live_claimed env hlive msg
  handle := rfl
  prvKey := rfl
  iv := rfl
  aad := rfl
  shares := id
  log := ⟨[], (List.append_nil _).symm, nofun⟩
  pending := ⟨[], (List.append_nil _).symm, nofun⟩

/-- The request that the client's login makes is one of the client. -/
theorem ownRequest_loginRequest {msg : AuthLoginReq}
    (hsign : msg.sign.getD [] = ownSign secp hd m (msg.captcha.getD [])) :
    OwnRequest secp hd m (loginRequest conn msg) :=
  ⟨hsign, Nat.le_of_eq (length_encode_attach _)⟩

/-- `AuthLoginReq` on it: an error alone, or the claim is noted and passed on. -/
theorem authLoginReq_own {msg : AuthLoginReq} (hlive : Live s c conn)
    (hparse : proto.authLoginReq.parse q.body = (msg, true)) (fill : Nat → UInt8) :
    (∃ e, authLoginReq (.ofHD proto secp hd) env fill ⟨conn.handle, q⟩ s =
      (s, .ok (authLoginRes (.ofHD proto secp hd) fill { error := some e } ⟨conn.handle, q⟩))) ∨
    authLoginReq (.ofHD proto secp hd) env fill ⟨conn.handle, q⟩ s =
      (claimed env s c conn msg, .ok (.next fill
        (proto.serverLoginReq.serialize (loginRequest conn msg)) cidServerLoginReq
        q.getSeqNum)) := by
  have hparse' : (Libs.ofHD proto secp hd).proto.authLoginReq.parse q.body = (msg, true) := hparse
  rw [authLoginReq, hlive.find]
  dsimp only
  rw [hparse']
  dsimp only
  split
  · exact .inl ⟨_, rfl⟩
  split
  · exact .inl ⟨_, rfl⟩
  split
  · exact .inl ⟨_, rfl⟩
  · exact .inr rfl

/-- The request goes to the business server, or the client hears that there is none. -/
theorem quietly_wait (hlive : Live s c conn) {msg : ServerLoginReq}
    (hinit : Message.isInitialized msg = true)
    (hlen : (Wire.encode (Message.fields msg)).length < 2 ^ 31) (hown : OwnRequest secp hd m msg)
    {again : CImPdu → MsgServer → MsgServer × Option Fault} (fill : Nat → UInt8) (seq : UInt16) :
    Quietly proto pub hd m c conn s conn (respond (.ofHD proto secp hd) env true k again c
      conn.handle (.next fill (proto.serverLoginReq.serialize msg) cidServerLoginReq seq) s).1 := by
  have hdata := proto.serverLoginReq.serialize_eq hinit hlen
  have hparse := proto.serverLoginReq.parse_serialize hdata
  rw [hinit] at hparse
  have hwrote := wrote_msgPdu fill hlen cidServerLoginReq seq
  rw [hdata, respond, pdu_next]
  split
  · rename_i pdu hvalid hpdu
    cases hpdu
    change Quietly proto pub hd m c conn s conn (if env.businessConnOpen = true then _ else _ :
      MsgServer × Option Fault).1
    split
    · -- the request waits
      refine ⟨⟨hlive.object, hlive.map⟩, rfl, rfl, rfl, rfl, id,
        ⟨[], (List.append_nil _).symm, fun _ hmem => absurd hmem List.not_mem_nil⟩, ⟨_, rfl, ?_⟩⟩
      intro request hmem
      cases List.mem_singleton.mp hmem
      refine ⟨⟨msg, _, hwrote.setReversed _, hparse, hown⟩, ?_⟩
      intro q hq
      exact reversed_delivered hwrote.hasHeader hq
    · have hbeat := proto.heartBeatNotify.serialize_eq (m := {}) rfl (by decide)
      have hempty : ([] : Bytes).length < 2 ^ 31 := by decide
      have hnone := wrote_msgPdu (env.heap (2 * k + 1)) hempty
        (msgPdu fill (some (Wire.encode (Message.fields msg))) cidServerLoginReq seq).getCommandId
        (msgPdu fill (some (Wire.encode (Message.fields msg))) cidServerLoginReq seq).getSeqNum
      apply quietly_sendPdu hlive
      change Quiet ((CImPdu.new.setPBMsgCmd _ (proto.heartBeatNotify.serialize {}) _ _).setFlag _)
      rw [hbeat]
      refine (hnone.setFlag _).quiet ?_
      rw [hwrote.commandId]
      decide
  · exact quietly_refl hlive

theorem quietly_login (h : KeyLaws secp hd pub) (hfits : CacheFits env.cache)
    (hlive : Live s c conn) (hkey : HasKey hd conn) (hown : OwnLogin proto secp hd m q) :
    ∃ conn', Quietly proto pub hd m c conn s conn'
      (handlePdu (.ofHD proto secp hd) env async c q s).1 := by
  obtain ⟨hcid, msg, hparse, hsign, haddress, hcaptcha⟩ := hown
  have haction : getHandler q.getCommandId = some .authLoginReq := by
    rw [hcid]
    rfl
  have hclaimed : Quietly proto pub hd m c conn s (claimedConn env conn msg)
      (claimed env s c conn msg) := quietly_claimed hlive msg
  have hlen := length_loginRequest_lt h conn hsign haddress hcaptcha
  have hrequest : OwnRequest secp hd m (loginRequest conn msg) := ownRequest_loginRequest hsign
  by_cases hturned : async = true ∧ q.getCommandId = cidAuthLoginReq ∧ env.loginConnOpen = false
  · -- there is no business server, and the handler does not run
    rw [handlePdu, handleNextResponse, hlive.object]
    dsimp only
    rw [haction]
    dsimp only
    rw [if_pos hturned]
    refine ⟨conn, quietly_sendPdu hlive ?_⟩
    have hdata := proto.authLoginRes.serialize_eq (m := { error := some .eReasonNoDbServer }) rfl
      (length_error_lt _)
    change Quiet (CImPdu.new.setPBMsgCmd _ (proto.authLoginRes.serialize _) _ _)
    rw [hdata]
    exact (wrote_msgPdu _ (length_error_lt _) _ _).quiet (by decide)
  · have hopen : async = true → q.getCommandId = cidAuthLoginReq → env.loginConnOpen = true := by
      intro hasync _
      by_contra hno
      exact hturned ⟨hasync, hcid, by simpa using hno⟩
    rw [handlePdu, handleNext_of_handler _ env hlive.object haction hopen, Action.run]
    rcases authLoginReq_own hlive hparse (env.heap (2 * 2)) with ⟨e, heq⟩ | heq
    · rw [heq]
      exact ⟨conn, quietly_authLoginRes hlive rfl (length_error_lt e)⟩
    · rw [heq]
      dsimp only
      cases async with
      | true =>
        refine ⟨claimedConn env conn msg, hclaimed.trans ?_⟩
        exact quietly_wait hclaimed.live rfl hlen hrequest (env.heap (2 * 2)) q.getSeqNum
      | false =>
        rcases respond_next (.ofHD proto secp hd) env (env.heap (2 * 2))
          (proto.serverLoginReq.serialize (loginRequest conn msg)) cidServerLoginReq
          q.getSeqNum with hr | hr
        · rw [hr]
          exact ⟨_, hclaimed⟩
        · rw [hr]
          obtain ⟨hcid', hbody'⟩ := requestPdu_spec (.ofHD proto secp hd) (env.heap (2 * 2))
            (loginRequest conn msg) q.getSeqNum
          have hdata := proto.serverLoginReq.serialize_eq rfl hlen
          have hread := proto.serverLoginReq.parse_serialize hdata
          change _ = (proto.serverLoginReq.serialize _).getD [] at hbody'
          rw [hdata] at hbody'
          rw [← Option.getD_some (a := Wire.encode _) (b := []), ← hbody'] at hread
          obtain ⟨conn', hnext⟩ := quietly_request h hfits hclaimed.live hkey hcid' hread hrequest
          exact ⟨conn', hclaimed.trans hnext⟩

/-! ## Captchas -/

/-- What `gen_random` and `RAND_bytes` draw. -/
structure Drawn (env : Env) : Prop where
  captcha : env.captcha.length = 6
  text : ∀ x ∈ env.captcha, x ≠ 0
  iv : env.iv.length = 16
  aad : env.aad.length = 16

/-- The answer to a captcha request, signed with the key of a phrase. -/
def captchaRes (secp : Secp256k1) (hd : HDPrimitives) (m' captcha iv aad : Bytes) :
    AuthCaptchaRes :=
  { captcha := some captcha
    sign := some (ownSign secp hd m' captcha)
    address := some (HDKey.ecdsaGetPublicAddress hd (phraseKey hd m'))
    iv := some iv
    aad := some aad
    error := some .noError }

/-- The answer that tells the client what `conn` has now. -/
structure CarriesKeys (secp : Secp256k1) (hd : HDPrimitives) (conn : CMsgSrvConn) (env : Env)
    (m' : Bytes) (p : CImPdu) : Prop where
  drawn : Drawn env
  prvKey : conn.prvKey = bytesToHexString (phraseKey hd m')
  iv : conn.iv = bytesToHexString env.iv
  aad : conn.aad = bytesToHexString env.aad
  wrote : Wrote p cidAuthCaptchaRes
    (Wire.encode (Message.fields (captchaRes secp hd m' env.captcha env.iv env.aad)))
  reversed : ∀ q, Delivered p q → q.getReversed = 0

theorem length_captchaRes_of_drawn (henv : Drawn env) {m' : Bytes}
    (hsign : (ownSign secp hd m' env.captcha).length = 65)
    (haddress : (HDKey.ecdsaGetPublicAddress hd (phraseKey hd m')).length = 20) :
    (Wire.encode (Message.fields (captchaRes secp hd m' env.captcha env.iv env.aad))).length <
      2 ^ 31 := by
  have h1 := length_stringField_le 1 (some env.captcha)
  have h2 := length_stringField_le 2 (some (HDKey.ecdsaGetPublicAddress hd (phraseKey hd m')))
  have h3 := length_stringField_le 3 (some env.iv)
  have h4 := length_stringField_le 4 (some env.aad)
  have h5 := length_stringField_le 5 (some (ownSign secp hd m' env.captcha))
  have h6 := length_numberField_le 6 (some ERR.noError.code)
  simp only [Option.getD_some, henv.captcha, henv.iv, henv.aad, hsign, haddress] at h1 h2 h3 h4 h5
  simp only [captchaRes, Message.fields, Option.map_some, Wire.encode_append, List.length_append]
  omega

theorem length_captchaRes_lt (h : KeyLaws secp hd pub) (henv : Drawn env) (m' : Bytes) :
    (Wire.encode (Message.fields (captchaRes secp hd m' env.captcha env.iv env.aad))).length <
      2 ^ 31 :=
  length_captchaRes_of_drawn henv (h.length_ownSign m' env.captcha) (h.length_address _)

/-- The key that the server makes is that of a phrase. -/
theorem captchaKey_ofHD (env : Env) : captchaKey (.ofHD proto secp hd) env =
    (phraseKey hd (cString (MnemonicHelper.generate env.random).raw),
      bytesToHexString (HDKey.ecdsaGetPublicAddress hd
        (phraseKey hd (cString (MnemonicHelper.generate env.random).raw)))) := by
  rw [phraseKey, privateKey_eq]
  rfl

/-- The connection after a captcha request. -/
def captchaConn (hd : HDPrimitives) (env : Env) (conn : CMsgSrvConn) (m' : Bytes) : CMsgSrvConn :=
  { conn with
    captcha := env.captcha
    prvKey := bytesToHexString (phraseKey hd m')
    iv := bytesToHexString env.iv
    aad := bytesToHexString env.aad }

/-- The phrase that the server makes for a captcha request. -/
def captchaPhrase (env : Env) : Bytes := cString (MnemonicHelper.generate env.random).raw

/-- The handler, on a request that it can parse. -/
theorem authCaptchaReq_parsed (hlive : Live s c conn)
    (hparse : (proto.authCaptchaReq.parse q.body).2 = true) (fill : Nat → UInt8) :
    authCaptchaReq (.ofHD proto secp hd) env fill ⟨conn.handle, q⟩ s =
      ((s.setConn c (captchaConn hd env conn (captchaPhrase env))).record (.issued c env.captcha),
        .ok (.sendMsg fill (proto.authCaptchaRes.serialize
          (captchaRes secp hd (captchaPhrase env) env.captcha env.iv env.aad)) cidAuthCaptchaRes
          q.getSeqNum)) := by
  have hparse' : ((Libs.ofHD proto secp hd).proto.authCaptchaReq.parse q.body).2 = true := hparse
  rw [authCaptchaReq]
  dsimp only
  rw [hlive.find]
  dsimp only
  rw [if_pos hparse', captchaKey_ofHD]
  dsimp only
  rw [bytesToHexString, hexToString_drop_bytesToHex]
  dsimp only
  rw [setConn_record_setConn]
  rfl

/-- A captcha request is answered with what the connection has after it. -/
theorem handlePdu_captcha_own (h : KeyLaws secp hd pub) (henv : Drawn env) (hlive : Live s c conn)
    (hcid : q.getCommandId = cidAuthCaptchaReq)
    (hparse : (proto.authCaptchaReq.parse q.body).2 = true) :
    ∃ conn' m' p, CarriesKeys secp hd conn' env m' p ∧ conn'.handle = conn.handle ∧
      conn'.isOpen = conn.isOpen ∧
      (handlePdu (.ofHD proto secp hd) env async c q s).1 =
        ((s.setConn c conn').record (.issued c env.captcha)).sendPdu c p := by
  have haction : getHandler q.getCommandId = some .authCaptchaReq := by
    rw [hcid]
    rfl
  have hopen : async = true → q.getCommandId = cidAuthLoginReq → env.loginConnOpen = true :=
    fun _ heq => absurd (hcid.symm.trans heq) (by decide)
  have hlen := length_captchaRes_lt h henv (captchaPhrase env)
  have hdata := proto.authCaptchaRes.serialize_eq rfl hlen
  have hwrote := (wrote_msgPdu (env.heap (2 * 2)) hlen cidAuthCaptchaRes q.getSeqNum).setReversed 0
  have hvalid := isPduValid_sendMsg (env.heap (2 * 2)) hlen cidAuthCaptchaRes q.getSeqNum
  rw [handlePdu, handleNext_of_handler _ env hlive.object haction hopen, Action.run,
    authCaptchaReq_parsed hlive hparse]
  refine ⟨captchaConn hd env conn _, _, _, ⟨henv, rfl, rfl, rfl, hwrote, ?_⟩, rfl, rfl, ?_⟩
  · intro q' hq'
    exact reversed_delivered (wrote_msgPdu _ hlen _ _).hasHeader hq'
  · dsimp only
    rw [hdata, respond, hvalid, pdu_sendMsg]
    rfl

/-! ## Answers of the business server -/

/-- What protocol buffers do with a message without a required field: a release build writes it
    all the same. -/
def WritesPartial (proto : Library) : Prop :=
  ∀ msgRsp, (Wire.encode (Message.fields msgRsp)).length < 2 ^ 31 →
    proto.serverLoginRes.serialize msgRsp = some (Wire.encode (Message.fields msgRsp))

/-- It writes its answer, and the message server handles that as the result of a login. -/
theorem quietly_answer (h : KeyLaws secp hd pub) (hwrites : WritesPartial proto) {env' : Env}
    (hfits : CacheFits env'.cache) (hlive : Live s c conn) (hkey : HasKey hd conn)
    {request : Pending} (hown : OwnPending proto secp hd m conn.handle request) {uuid : UInt32}
    {b b' : MsgServer} {r p : CImPdu} (hq : Delivered request.pdu q)
    (hrun : CProxyTask.run (.ofHD proto secp hd) env' ⟨uuid, q⟩ .serverLoginReq b =
      (b', .ok (some r))) (hp : Delivered r p) :
    ∃ conn', Quietly proto pub hd m c conn s conn'
      (handleBusinessPdu (.ofHD proto secp hd) env p s).1 := by
  obtain ⟨⟨msg, body, hwrote, hparse, hrequest⟩, hhandle⟩ := hown
  obtain ⟨-, hbody⟩ := hwrote.delivered hq
  rw [← hbody] at hparse
  rcases serverLoginReq_own h hfits hparse hrequest (env'.heap 0) uuid b with
    ⟨fault, heq⟩ | ⟨e, msgRsp, -, hrsp, heq⟩
  · rw [CProxyTask.run, Action.run, heq] at hrun
    cases hrun
  · obtain ⟨-, rfl⟩ := run_loginResult heq hrun
    have hanswer := wrote_msgPdu (env'.heap 0) hrsp.length cidServerLoginRes q.getSeqNum
    have hdata := hwrites msgRsp hrsp.length
    change Delivered ((msgPdu _ (proto.serverLoginRes.serialize msgRsp) _ _).setReversed _) p at hp
    rw [hdata] at hp
    obtain ⟨hcid', hbody'⟩ := (hanswer.setReversed _).delivered hp
    have hown : OwnResult proto pub hd m p := hrsp.result (by rw [hdata]; exact hbody')
    have hreversed : p.getReversed = conn.handle :=
      (reversed_delivered hanswer.hasHeader hp).trans (hhandle q hq)
    rcases handleBusinessPdu_eq (.ofHD proto secp hd) env s hcid' with
      ⟨hnone, -⟩ | ⟨d, other, hsome, heq'⟩
    · rw [hreversed, hlive.find] at hnone
      cases hnone
    · rw [hreversed, hlive.find] at hsome
      cases hsome
      rw [heq']
      exact quietly_result h hlive hkey hcid' hown

end

end

end Server
end Proof
end PtpCore
