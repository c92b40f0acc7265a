import PtpCore.Net.Session
import PtpCore.Proof.Net.Channel
import PtpCore.Proof.Server.KeyExchange

/-!
# The keys of a client

The other end of the connection: what an honest account sends, and what it makes of the answers.
Its login requests are signed with the key of its phrase. Only the answer to a captcha request
touches the strings of the channel, and an answer that was signed with the key of a phrase leaves
there what that key gives.
-/

namespace PtpCore
namespace Proof
namespace Net

open Lib PtpCore.Proto PtpCore.Crypto
open PtpCore.Global PtpCore.Server PtpCore.Wallet PtpCore.Net
open PtpCore.Proof.Global PtpCore.Proof.Server PtpCore.Proof.Wallet
open Toolbox AccountManager

/-! ## What the client makes of a PDU -/

theorem bytesToHex_injective {a b : Bytes} (h : bytesToHex a = bytesToHex b) : a = b := by
  have hread : hexToString ((bytesToHex a).drop 2) = hexToString ((bytesToHex b).drop 2) := by
    rw [h]
  rw [hexToString_drop_bytesToHex, hexToString_drop_bytesToHex] at hread
  exact Option.some.inj hread

theorem readPdu_header {fill : Nat → UInt8} {b : Bytes} {len : Nat} {q : CImPdu}
    (h : CImPdu.readPdu fill b len = .ok (some q)) : q.header = CImPdu.headerOf b := by
  unfold CImPdu.readPdu at h
  cases hav : CImPdu.isPduAvailable b len with
  | error e =>
    rw [hav] at h
    cases h
  | ok r =>
    rw [hav] at h
    cases r with
    | none => cases h
    | some pduLen =>
      simp only [bind, Except.bind, CImPdu.readPduHeader_eq] at h
      cases h
      rfl

theorem readPduUnchecked_header {fill : Nat → UInt8} {b : Bytes} {len : Nat} {q : CImPdu}
    (h : readPduUnchecked fill b len = .ok q) : q.header = CImPdu.headerOf b := by
  unfold readPduUnchecked at h
  split at h
  · cases h
  · cases h
  · rename_i q' hread
    cases h
    exact readPdu_header hread

theorem length_mem {p : CImPdu} (h : CImPdu.HasHeader p) : 16 ≤ p.buf.mem.length :=
  Nat.le_trans h.le h.ok.offset_le

/-- The command id of a PDU that was made from decrypted bytes. -/
theorem commandId_decrypted (fill : Nat → UInt8) {data : Bytes} (h : data.length < 2 ^ 31)
    (cid seq : UInt16) : (CImPdu.headerOf ((((CImPdu.new.setPBMsgBuf fill data).setCommandId
      cid).setSeqNum seq).setReversed 0).buf.mem).commandId = cid := by
  have hheader : CImPdu.HasHeader (CImPdu.new.setPBMsgBuf fill data) :=
    (CImPdu.setPBMsgBuf_spec fill (ok_blankPdu 0 0) h).1
  have hcid : 8 + (CByteStream.writeUint16 cid).length ≤ 16 := by simp
  have hseq : 10 + (CByteStream.writeUint16 seq).length ≤ 16 := by simp
  change (CImPdu.headerOf (overwrite (((CImPdu.new.setPBMsgBuf fill data).poke 8 _).poke 10
    _).buf.mem 12 _)).commandId = cid
  rw [CImPdu.headerOf_setReversed (length_mem ((hheader.poke hcid).poke hseq))]
  change (CImPdu.headerOf (overwrite ((CImPdu.new.setPBMsgBuf fill data).poke 8 _).buf.mem 10
    _)).commandId = cid
  rw [CImPdu.headerOf_setSeqNum (length_mem (hheader.poke hcid))]
  change (CImPdu.headerOf (overwrite (CImPdu.new.setPBMsgBuf fill data).buf.mem 8
    _)).commandId = cid
  rw [CImPdu.headerOf_setCommandId (length_mem hheader)]

/-- Decryption keeps the command id. -/
theorem commandId_decryptPdu {gcm : Gcm} {env : ClientEnv} {ch : Channel} {pdu r : CImPdu}
    (h : decryptPdu gcm env ch pdu = .ok (some r)) : r.getCommandId = pdu.getCommandId := by
  unfold decryptPdu at h
  cases hkeys : ch.keys env with
  | error fault =>
    rw [hkeys] at h
    cases h
  | ok keys =>
    rw [hkeys] at h
    simp only [bind, Except.bind] at h
    cases hdec : aesGcmDecrypt gcm env.evp pdu.body keys.key keys.iv (some keys.aad) with
    | error e =>
      rw [hdec] at h
      cases h
    | ok data =>
      rw [hdec] at h
      dsimp only at h
      -- no more than fits into `decData` comes out
      by_cases hlong : decDataLen < data.length
      · rw [if_pos hlong] at h
        cases h
      rw [if_neg hlong] at h
      cases hempty : data.isEmpty with
      | true =>
        rw [hempty] at h
        cases h
      | false =>
        rw [hempty] at h
        have hdata : data.length < 2 ^ 31 := Nat.lt_of_le_of_lt (Nat.not_lt.mp hlong) (by decide)
        have hcid := commandId_decrypted env.heap hdata pdu.getCommandId pdu.getSeqNum
        generalize ((((CImPdu.new.setPBMsgBuf env.heap data).setCommandId
          pdu.getCommandId).setSeqNum pdu.getSeqNum).setReversed 0) = pdu1 at h hcid
        change some <$> readPduUnchecked env.heap pdu1.buf.mem pdu1.getLength = .ok (some r) at h
        cases hread : readPduUnchecked env.heap pdu1.buf.mem pdu1.getLength with
        | error fault =>
          rw [hread] at h
          cases h
        | ok q =>
          rw [hread] at h
          cases h
          rw [CImPdu.getCommandId, readPduUnchecked_header hread]
          exact hcid

section

variable {l : ClientLibs} {env : ClientEnv} {a : Account l.storage.Files} {q : CImPdu}

/-- Nothing but the answer to a captcha request changes the channel or is answered. -/
theorem handlePdu_quiet (hq : q.getCommandId ≠ cidAuthCaptchaRes) :
    (a.handlePdu l env q).1.manager = a.manager ∧ (a.handlePdu l env q).1.channel = a.channel ∧
      ∀ pdu, (a.handlePdu l env q).2 ≠ .ok (some pdu) := by
  unfold Account.handlePdu
  by_cases hrev : q.getReversed = 1
  · rw [if_pos hrev]
    dsimp only
    cases hdec : decryptPdu l.gcm env a.channel q with
    | error fault => exact ⟨rfl, rfl, nofun⟩
    | ok r =>
      cases r with
      | none => exact ⟨rfl, rfl, nofun⟩
      | some r =>
        have hne : ¬ r.getCommandId = cidAuthCaptchaRes := commandId_decryptPdu hdec ▸ hq
        dsimp only
        rw [if_neg hne]
        exact ⟨rfl, rfl, nofun⟩
  · rw [if_neg hrev]
    dsimp only
    rw [if_neg hq]
    exact ⟨rfl, rfl, nofun⟩

end

/-! ## The phrase of an account -/

/-- `m` is the phrase of the entropy, whatever memory the conversion meets. -/
def HasPhrase (entropy m : Bytes) : Prop :=
  ∀ u : Unspecified, cString (MnemonicHelper.entropyHexToMnemonic u.pastEnd entropy).raw = m

theorem IsEntropy.hasPhrase {text : Bytes} (h : IsEntropy text) : ∃ m, HasPhrase text m := by
  obtain ⟨e, he, rfl⟩ := h
  refine ⟨cString (phraseOf enWords (shown e)), ?_⟩
  intro u
  rw [raw_entropyHexToMnemonic u.pastEnd he]

theorem signMessage_eq {secp : Secp256k1} {hd : HDPrimitives} {Files : Type}
    {a : AccountManager Files} {m : Bytes} (h : HasPhrase a.entropy m) (u : Unspecified)
    (message : Bytes) : signMessage secp hd u a message = ownSign secp hd m message := by
  rw [ownSign, ← h u]
  rfl

theorem createShareKey_eq {secp : Secp256k1} {hd : HDPrimitives} {Files : Type}
    {a : AccountManager Files} {m : Bytes} (h : HasPhrase a.entropy m) (u : Unspecified)
    (pubKey : secp.PubKey) :
    createShareKey secp hd u a pubKey = secp.ecdh pubKey (phraseKey hd m) := by
  rw [← h u]
  rfl

section

variable {hd : HDPrimitives} {d : Storage} {a : AccountManager d.Files} {m : Bytes}

/-- An account with nothing in memory yet, or with the entropy of `m` and no address but its
    own. -/
def MayHave (hd : HDPrimitives) (d : Storage) (a : AccountManager d.Files) (m : Bytes) : Prop :=
  Fresh d a ∨ Loaded (hdKeyEncoder hd) d a ∧ HasPhrase a.entropy m

theorem exists_mayHave (h : Fresh d a ∨ Loaded (hdKeyEncoder hd) d a) : ∃ m, MayHave hd d a m := by
  rcases h with hfresh | hloaded
  · exact ⟨[], .inl hfresh⟩
  · obtain ⟨m, hm⟩ := hloaded.entropy.hasPhrase
    exact ⟨m, .inr ⟨hloaded, hm⟩⟩

/-- `getAccountAddress` loads an entropy if there is none, and keeps it if there is one. -/
theorem getAccountAddress_loads {secp : Secp256k1} {pub : Bytes → secp.PubKey}
    (hlaws : KeyLaws secp hd pub) (h : Fresh d a ∨ Loaded (hdKeyEncoder hd) d a) (u : Unspecified)
    {fuel : Nat} (hfuel : 2 < fuel) :
    ∃ address a', getAccountAddress (hdKeyEncoder hd) d u fuel a = some (address, a') ∧
      address.length ≤ 42 ∧ Loaded (hdKeyEncoder hd) d a' ∧
      ∀ m, HasPhrase a'.entropy m → MayHave hd d a m := by
  have hlen : ∀ text, (getAddressByEntropy (hdKeyEncoder hd) u text).length = 42 := by
    intro text
    rw [getAddressByEntropy_eq, length_bytesToHex, hlaws.length_address]
  obtain ⟨n, rfl⟩ := Nat.exists_eq_add_of_le' hfuel
  rcases h with hfresh | hloaded
  · obtain ⟨a', hget, hloaded⟩ := hfresh.getAccountAddress (p := hd) u n
    refine ⟨_, a', hget, ?_, hloaded, fun m _ => .inl hfresh⟩
    rcases hloaded.address u with hnil | hown
    · rw [hnil]
      exact Nat.zero_le _
    · rw [hown, hlen]
  · obtain ⟨a', hget, hentropy, -, hloaded'⟩ := hloaded.getAccountAddress u (n + 2)
    refine ⟨_, a', hget, Nat.le_of_eq (hlen _), hloaded', ?_⟩
    intro m hm
    exact .inr ⟨hloaded, hentropy ▸ hm⟩

end

/-! ## Its requests -/

/-- A request of the client, as the server reads it. -/
def FromClient (proto : Library) (secp : Secp256k1) (hd : HDPrimitives) (m : Bytes) (p : CImPdu) :
    Prop :=
  ∀ q, Delivered p q →
    (q.getCommandId = cidAuthCaptchaReq ∧ (proto.authCaptchaReq.parse q.body).2 = true) ∨
      OwnLogin proto secp hd m q

theorem fromClient_captcha (proto : Library) {secp : Secp256k1} {hd : HDPrimitives} {m : Bytes}
    (heap : Nat → UInt8) (seqNum : UInt16) :
    FromClient proto secp hd m (CImPdu.new.setPBMsgCmd heap (proto.authCaptchaReq.serialize {})
      cidAuthCaptchaReq seqNum) := by
  have hlen : (Wire.encode (Message.fields ({} : AuthCaptchaReq))).length < 2 ^ 31 := by decide
  have hdata := proto.authCaptchaReq.serialize_eq (m := {}) rfl hlen
  intro q hq
  rw [hdata] at hq
  obtain ⟨hcid, hbody⟩ := (wrote_msgPdu heap hlen cidAuthCaptchaReq seqNum).delivered hq
  refine .inl ⟨hcid, ?_⟩
  rw [hbody, proto.authCaptchaReq.parse_serialize hdata]
  rfl

section

variable {l : ClientLibs} {env : ClientEnv} {a : AccountManager l.storage.Files} {m : Bytes}
  {pub : Bytes → l.secp.PubKey}

theorem fromClient_loginRequest (hlaws : KeyLaws l.secp l.hd pub) (hphrase : HasPhrase a.entropy m)
    {address captcha : Bytes} (haddress : address.length ≤ 42) (hcaptcha : captcha.length ≤ 6) :
    FromClient l.proto l.secp l.hd m (loginRequest l env a address captcha) := by
  intro q hq
  right
  have h1 := length_stringField_le 1 (some address)
  have h2 := length_stringField_le 2 (some captcha)
  have h3 := length_numberField_le 3 (some ClientType.android.code)
  have h5 := length_stringField_le 5 (some "1.0.1".toUTF8.toList)
  have h6 := length_stringField_le 6 (some (ownSign l.secp l.hd m captcha))
  have hversion : "1.0.1".toUTF8.toList.length = 5 := by decide +kernel
  simp only [Option.getD_some, hlaws.length_ownSign, hversion] at h1 h2 h5 h6
  unfold PtpCore.Net.loginRequest at hq
  dsimp only at hq
  rw [signMessage_eq hphrase] at hq
  have hlen : (Wire.encode (Message.fields ({
      address := some address
      captcha := some captcha
      sign := some (ownSign l.secp l.hd m captcha)
      clientVersion := some "1.0.1".toUTF8.toList
      clientType := some .android } : AuthLoginReq))).length < 2 ^ 31 := by
    simp only [Message.fields, Option.map_some, Wire.encode_append, List.length_append]
    omega
  have hdata := l.proto.authLoginReq.serialize_eq rfl hlen
  rw [hdata] at hq
  obtain ⟨hcid, hbody⟩ := (wrote_msgPdu env.heap hlen cidAuthLoginReq 0).delivered hq
  have hparse := l.proto.authLoginReq.parse_serialize hdata
  rw [← hbody] at hparse
  exact ⟨hcid, _, hparse, rfl, haddress, hcaptcha⟩

end

/-! ## The answer to a captcha request -/

/-- A short text is written behind two bytes. -/
theorem encode_stringField {num : Nat} {b : Bytes} (hnum : num < 15) (hb : b.length < 128) :
    Wire.encode (stringField num (some b)) =
      UInt8.ofNat (num * 8 + 2) :: UInt8.ofNat b.length :: b := by
  change Wire.putVarint (9 + 1) (num * 8 + 2) ++ (Wire.putVarint (9 + 1) b.length ++ b) ++ [] = _
  rw [List.append_nil, Wire.putVarint_of_lt (by omega), Wire.putVarint_of_lt hb]
  rfl

/-- `n` bytes behind the first two bytes of a text of that length. -/
theorem slice_stringField {num n : Nat} {b rest : Bytes} (hnum : num < 15) (hn : b.length = n)
    (hb : n < 128) : slice (Wire.encode (stringField num (some b)) ++ rest) 2 n = b := by
  rw [encode_stringField hnum (hn ▸ hb)]
  exact List.take_left' hn

theorem length_stringField (num : Nat) {n : Nat} {b : Bytes} (hnum : num < 15) (hn : b.length = n)
    (hb : n < 128) : (Wire.encode (stringField num (some b))).length = n + 2 := by
  rw [encode_stringField hnum (hn ▸ hb), List.length_cons, List.length_cons, hn]

theorem bodyAt_eq {env : ClientEnv} {q : CImPdu} {i n : Nat} (h : i + n ≤ q.body.length) :
    bodyAt env q i n = slice q.body i n := by
  have hbody : q.body = q.getBodyData.take q.getBodyLength := rfl
  rw [hbody, List.length_take] at h
  rw [hbody, slice_take (Nat.le_trans h (Nat.min_le_left _ _)), bodyAt,
    slice_append_left (Nat.le_trans h (Nat.min_le_right _ _))]

section

variable {l : ClientLibs} {pub : Bytes → l.secp.PubKey} {env : ClientEnv} {draw : Env}
  {m' : Bytes} {q : CImPdu}

/-- The client finds each part at its position. -/
structure TakenApart (l : ClientLibs) (env : ClientEnv) (draw : Env) (m' : Bytes) (q : CImPdu) :
    Prop where
  captcha : bodyAt env q 2 6 = draw.captcha
  address : bodyAt env q 10 20 = HDKey.ecdsaGetPublicAddress l.hd (phraseKey l.hd m')
  iv : bodyAt env q 32 16 = draw.iv
  aad : bodyAt env q 50 16 = draw.aad
  sign : bodyAt env q 68 65 = ownSign l.secp l.hd m' draw.captcha

theorem takenApart (hlaws : KeyLaws l.secp l.hd pub) (hdrawn : Drawn draw)
    (hbody : q.body = Wire.encode (Message.fields
      (captchaRes l.secp l.hd m' draw.captcha draw.iv draw.aad))) :
    TakenApart l env draw m' q := by
  have haddress := hlaws.length_address (phraseKey l.hd m')
  have hsign := hlaws.length_ownSign m' draw.captcha
  have h1 := length_stringField 1 (by decide) hdrawn.captcha (by decide)
  have h2 := length_stringField 2 (by decide) haddress (by decide)
  have h3 := length_stringField 3 (by decide) hdrawn.iv (by decide)
  have h4 := length_stringField 4 (by decide) hdrawn.aad (by decide)
  have h5 := length_stringField 5 (by decide) hsign (by decide)
  simp only [captchaRes, Message.fields, Wire.encode_append, List.append_assoc] at hbody
  have hlen : 133 ≤ q.body.length := by
    rw [hbody]
    simp only [List.length_append, h1, h2, h3, h4, h5]
    omega
  -- every text stands behind its two bytes, and the one before it is skipped as a whole
  constructor
  · rw [bodyAt_eq (by omega), hbody]
    exact slice_stringField (by decide) hdrawn.captcha (by decide)
  · rw [bodyAt_eq (by omega), hbody, slice_append_right h1 2]
    exact slice_stringField (by decide) haddress (by decide)
  · rw [bodyAt_eq (by omega), hbody, slice_append_right h1 24, slice_append_right h2 2]
    exact slice_stringField (by decide) hdrawn.iv (by decide)
  · rw [bodyAt_eq (by omega), hbody, slice_append_right h1 42, slice_append_right h2 20,
      slice_append_right h3 2]
    exact slice_stringField (by decide) hdrawn.aad (by decide)
  · rw [bodyAt_eq (by omega), hbody, slice_append_right h1 60, slice_append_right h2 38,
      slice_append_right h3 20, slice_append_right h4 2]
    exact slice_stringField (by decide) hsign (by decide)

/-- libsecp256k1 accepts the recovery id. -/
theorem recoveryId_ownSign (hlaws : KeyLaws l.secp l.hd pub) (m captcha : Bytes) :
    ¬ (recoveryId ((ownSign l.secp l.hd m captcha).getD 64 0) < 0 ∨
      3 < recoveryId ((ownSign l.secp l.hd m captcha).getD 64 0)) := by
  have hlen := hlaws.length_sign m (l.secp.keccak256 (formatSignMsgData captcha .ptp))
  have hid := hlaws.recId_sign m (l.secp.keccak256 (formatSignMsgData captcha .ptp))
  have hlast : (ownSign l.secp l.hd m captcha).getD 64 0 = (l.secp.sign (l.secp.keccak256
      (formatSignMsgData captcha .ptp)) (phraseKey l.hd m)).2 := by
    change (_ ++ [_]).getD 64 0 = _
    rw [List.getD_append_right _ _ _ _ (Nat.le_of_eq hlen), hlen]
    rfl
  have hlt : (l.secp.sign (l.secp.keccak256 (formatSignMsgData captcha .ptp))
      (phraseKey l.hd m)).2.toNat < 4 := hid
  rw [hlast, recoveryId_of_lt hid]
  omega

/-- What it stores then, and its login request. -/
theorem handleCaptcha_takenApart (hlaws : KeyLaws l.secp l.hd pub) (hdrawn : Drawn draw)
    (htaken : TakenApart l env draw m' q) {a : Account l.storage.Files} {address : Bytes}
    {manager : AccountManager l.storage.Files}
    (hget : getAccountAddress (hdKeyEncoder l.hd) l.storage env.memory env.depth a.manager =
      some (address, manager)) :
    a.handleCaptcha l env q =
      ({ a with
          manager := manager
          channel :=
            { sharedKeyHex := bytesToHex ((createShareKey l.secp l.hd env.memory manager
                (pub (phraseKey l.hd m'))).getD env.sharedSecret)
              ivHex := bytesToHex draw.iv
              aadHex := bytesToHex draw.aad } },
        .ok (some (loginRequest l env manager address draw.captcha))) := by
  have hcaptcha : cString draw.captcha = draw.captcha := cString_eq_self hdrawn.text
  have hrec := recoveryId_ownSign hlaws m' draw.captcha
  have hsame : ¬ bytesToHexString (HDKey.ecdsaGetPublicAddress l.hd (phraseKey l.hd m')) ≠
      bytesToHex (HDKey.ecdsaGetPublicAddress l.hd (phraseKey l.hd m')) := not_not.mpr rfl
  unfold Account.handleCaptcha
  rw [hget]
  dsimp only
  rw [htaken.captcha, htaken.address, htaken.iv, htaken.aad, htaken.sign, hcaptcha, if_neg hrec,
    hlaws.recover_ownSign]
  dsimp only
  -- the signature recovers to the address in the answer, so the client goes on
  rw [if_neg hsame, hlaws.parse_compressed]
  dsimp only
  rw [sendPdu_loginRequest]

theorem handleCaptcha_own (hlaws : KeyLaws l.secp l.hd pub) (hdrawn : Drawn draw)
    (htaken : TakenApart l env draw m' q) {a : Account l.storage.Files} {address m : Bytes}
    {manager : AccountManager l.storage.Files}
    (hget : getAccountAddress (hdKeyEncoder l.hd) l.storage env.memory env.depth a.manager =
      some (address, manager)) (hphrase : HasPhrase manager.entropy m) :
    a.handleCaptcha l env q =
      ({ a with
          manager := manager
          channel :=
            { sharedKeyHex := bytesToHex ((l.secp.ecdh (pub (phraseKey l.hd m'))
                (phraseKey l.hd m)).getD env.sharedSecret)
              ivHex := bytesToHex draw.iv
              aadHex := bytesToHex draw.aad } },
        .ok (some (loginRequest l env manager address draw.captcha))) := by
  rw [handleCaptcha_takenApart hlaws hdrawn htaken hget, createShareKey_eq hphrase]

/-- Whatever the answer says, what goes out is a login request of the account. -/
theorem handleCaptcha_request {a : Account l.storage.Files} {address : Bytes}
    {manager : AccountManager l.storage.Files}
    (hget : getAccountAddress (hdKeyEncoder l.hd) l.storage env.memory env.depth a.manager =
      some (address, manager)) :
    (a.handleCaptcha l env q).1.manager = manager ∧
      ∀ pdu, (a.handleCaptcha l env q).2 = .ok (some pdu) →
        pdu = loginRequest l env manager address (cString (bodyAt env q 2 6)) := by
  unfold Account.handleCaptcha
  rw [hget]
  dsimp only
  split
  · exact ⟨rfl, nofun⟩
  split
  · exact ⟨rfl, nofun⟩
  split
  · split
    · exact ⟨rfl, nofun⟩
    · exact ⟨rfl, nofun⟩
  split
  · exact ⟨rfl, nofun⟩
  rw [sendPdu_loginRequest]
  refine ⟨rfl, ?_⟩
  intro pdu hpdu
  cases hpdu
  rfl

theorem length_bodyAt_le (env : ClientEnv) (q : CImPdu) (i n : Nat) :
    (bodyAt env q i n).length ≤ n :=
  List.length_take_le n _

end

/-! ## Any PDU -/

theorem MayHave.hasPhrase {hd : HDPrimitives} {d : Storage} {a : AccountManager d.Files} {m : Bytes}
    (h : MayHave hd d a m) (hloaded : Loaded (hdKeyEncoder hd) d a) : HasPhrase a.entropy m := by
  rcases h with hfresh | ⟨-, hphrase⟩
  · exact absurd hfresh.entropy hloaded.entropy.ne_nil
  · exact hphrase

section

variable {l : ClientLibs} {pub : Bytes → l.secp.PubKey} {env : ClientEnv}
  {a : Account l.storage.Files}

/-- The account is in order after a call, has a phrase it may have had before, and what it sent, if
    anything, is a request of its own. -/
structure OwnCall (a : Account l.storage.Files)
    (r : Account l.storage.Files × Except NetFault (Option CImPdu)) : Prop where
  ok : Fresh l.storage r.1.manager ∨ Loaded (hdKeyEncoder l.hd) l.storage r.1.manager
  phrase : ∀ m, MayHave l.hd l.storage r.1.manager m → MayHave l.hd l.storage a.manager m
  sent : ∀ m, MayHave l.hd l.storage r.1.manager m → ∀ pdu, r.2 = .ok (some pdu) →
    FromClient l.proto l.secp l.hd m pdu

theorem ownCall_none {r : Account l.storage.Files × Except NetFault (Option CImPdu)}
    (h : Fresh l.storage a.manager ∨ Loaded (hdKeyEncoder l.hd) l.storage a.manager)
    (hmanager : r.1.manager = a.manager) (hsent : ∀ pdu, r.2 ≠ .ok (some pdu)) : OwnCall a r where
  ok := hmanager ▸ h
  phrase := fun _ hm => hmanager ▸ hm
  sent := fun _ _ pdu hpdu => absurd hpdu (hsent pdu)

theorem ownCall_handleCaptcha (hlaws : KeyLaws l.secp l.hd pub)
    (h : Fresh l.storage a.manager ∨ Loaded (hdKeyEncoder l.hd) l.storage a.manager)
    (hdepth : 2 < env.depth) (q : CImPdu) : OwnCall a (a.handleCaptcha l env q) := by
  obtain ⟨address, manager, hget, haddress, hloaded, hphrase⟩ :=
    getAccountAddress_loads hlaws h env.memory hdepth
  obtain ⟨hmanager, hsent⟩ := handleCaptcha_request (q := q) hget
  refine ⟨?_, ?_, ?_⟩
  · rw [hmanager]
    exact .inr hloaded
  · intro m hm
    rw [hmanager] at hm
    exact hphrase m (hm.hasPhrase hloaded)
  · intro m hm pdu hpdu
    rw [hmanager] at hm
    rw [hsent pdu hpdu]
    refine fromClient_loginRequest hlaws (hm.hasPhrase hloaded) haddress ?_
    exact Nat.le_trans (length_cString_le _) (length_bodyAt_le env q 2 6)

theorem ownCall_handlePdu (hlaws : KeyLaws l.secp l.hd pub)
    (h : Fresh l.storage a.manager ∨ Loaded (hdKeyEncoder l.hd) l.storage a.manager)
    (hdepth : 2 < env.depth) (q : CImPdu) : OwnCall a (a.handlePdu l env q) := by
  have hnone : ∀ r : Account l.storage.Files × Except NetFault (Option CImPdu),
      r.1.manager = a.manager → (∀ pdu, r.2 ≠ .ok (some pdu)) → OwnCall a r :=
    fun r => ownCall_none h
  unfold Account.handlePdu
  dsimp only
  split
  · split
    · exact hnone _ rfl nofun
    · exact hnone _ rfl nofun
    · split
      · -- an answer to a captcha request that was encrypted
        obtain ⟨hok, hphrase, hsent⟩ := ownCall_handleCaptcha
          (a := { a with connectionState := .logged }) hlaws h hdepth _
        exact ⟨hok, hphrase, hsent⟩
      · exact hnone _ rfl nofun
  · split
    · exact ownCall_handleCaptcha hlaws h hdepth q
    · exact hnone _ rfl nofun

theorem ownCall_requestLogin (hlaws : KeyLaws l.secp l.hd pub)
    (h : Fresh l.storage a.manager ∨ Loaded (hdKeyEncoder l.hd) l.storage a.manager)
    (hdepth : 2 < env.depth) {captcha : Bytes} (hcaptcha : captcha.length ≤ 6) :
    OwnCall a (a.requestLogin env captcha) ∧
      (a.requestLogin env captcha).1.channel = a.channel := by
  obtain ⟨address, manager, hget, haddress, hloaded, hphrase⟩ :=
    getAccountAddress_loads hlaws h env.memory hdepth
  unfold Account.requestLogin
  rw [hget]
  dsimp only
  rw [sendPdu_loginRequest]
  refine ⟨⟨.inr hloaded, fun m hm => hphrase m (hm.hasPhrase hloaded), ?_⟩, rfl⟩
  intro m hm pdu hpdu
  cases hpdu
  exact fromClient_loginRequest hlaws (hm.hasPhrase hloaded) haddress hcaptcha

end

end Net
end Proof
end PtpCore
