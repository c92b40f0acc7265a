import PtpCore.Proof.Net.ClientKeys
import PtpCore.Proof.Net.Session

/-!
# The answer to a captcha request, in the hands of the client

What the server writes with protocol buffers is found again at fixed positions. But every body is
taken apart in this way, also one that is shorter than the positions say, and the iv and the
associated data are stored before the signature is looked at.
-/

namespace PtpCore
namespace Proof
namespace Net

open Lib PtpCore.Proto PtpCore.Crypto
open PtpCore.Global PtpCore.Server PtpCore.Wallet PtpCore.Net
open PtpCore.Proof.Global PtpCore.Proof.Server PtpCore.Proof.Wallet
open Toolbox AccountManager

section

variable (l : ClientLibs) (env : ClientEnv)

/-- The signature in an answer recovers to the address in it. -/
def Recovers (q : CImPdu) : Prop :=
  ¬ (recoveryId ((bodyAt env q 68 65).getD 64 0) < 0 ∨
      3 < recoveryId ((bodyAt env q 68 65).getD 64 0)) ∧
    ∃ pubKey33, recoverPubKeyAndAddressFromSig l.secp (bodyAt env q 68 65)
      (formatSignMsgData (cString (bodyAt env q 2 6)) .ptp) =
        some (pubKey33, bytesToHex (bodyAt env q 10 20))

variable {l env} {a : Account l.storage.Files} {q : CImPdu}

/-! ## Any answer -/

/-- Nothing of the body counts but its five parts. -/
theorem handleCaptcha_congr {q' : CImPdu}
    (h : ∀ part ∈ captchaParts, bodyAt env q part.1 part.2 = bodyAt env q' part.1 part.2) :
    a.handleCaptcha l env q = a.handleCaptcha l env q' := by
  have hcaptcha : bodyAt env q 2 6 = bodyAt env q' 2 6 := h (2, 6) (by decide)
  have haddress : bodyAt env q 10 20 = bodyAt env q' 10 20 := h (10, 20) (by decide)
  have hiv : bodyAt env q 32 16 = bodyAt env q' 32 16 := h (32, 16) (by decide)
  have haad : bodyAt env q 50 16 = bodyAt env q' 50 16 := h (50, 16) (by decide)
  have hsign : bodyAt env q 68 65 = bodyAt env q' 68 65 := h (68, 65) (by decide)
  unfold Account.handleCaptcha
  rw [hcaptcha, haddress, hiv, haad, hsign]

variable (l env a) (pdu : CImPdu)

variable {l env a pdu}

variable (l env a pdu)

end

/-! ### A forged answer, while a session is running -/

section

variable {draw : Env} {draws : List Nat}

theorem alphanum_spec : alphanum.length = 62 ∧ ∀ x ∈ alphanum, x ≠ 0 := by decide +kernel

/-- A captcha is made of six letters and digits. -/
theorem drawn_of_genRandom (hdraws : draws.length = 6) (hcaptcha : draw.captcha = genRandom draws)
    (hiv : draw.iv.length = 16) (haad : draw.aad.length = 16) : Drawn draw := by
  obtain ⟨hlen, hne⟩ := alphanum_spec
  refine ⟨?_, ?_, hiv, haad⟩
  · rw [hcaptcha, genRandom, List.length_map, hdraws]
  · intro x hx
    rw [hcaptcha, genRandom] at hx
    obtain ⟨r, -, rfl⟩ := List.mem_map.mp hx
    have hr : r % 62 < alphanum.length := by
      rw [hlen]
      exact Nat.mod_lt r (by decide)
    rw [List.getD_eq_getElem _ _ hr]
    exact hne _ (List.getElem_mem hr)

variable {l : ClientLibs} {pub : Bytes → l.secp.PubKey} {env : ClientEnv} {m' : Bytes} {q : CImPdu}

theorem TakenApart.recovers (hlaws : KeyLaws l.secp l.hd pub) (hdrawn : Drawn draw)
    (h : TakenApart l env draw m' q) : Recovers l env q := by
  unfold Recovers
  rw [h.sign, h.captcha, h.address, cString_eq_self hdrawn.text]
  exact ⟨recoveryId_ownSign hlaws m' draw.captcha, _, hlaws.recover_ownSign m' draw.captcha⟩

variable (l pub)

/-- What `AuthCaptchaReq` writes is what `handlePdu` takes apart, and the signature is accepted. -/
theorem captchaRes_takenApart (hlaws : KeyLaws l.secp l.hd pub) (draw : Env) (draws : List Nat)
    (hdraws : draws.length = 6) (hcaptcha : draw.captcha = genRandom draws)
    (hiv : draw.iv.length = 16) (haad : draw.aad.length = 16) (async : Bool) (s : MsgServer)
    (c : ConnId) (conn : CMsgSrvConn) (hlive : Live s c conn) (req : CImPdu)
    (hcid : req.getCommandId = cidAuthCaptchaReq)
    (hparse : (l.proto.authCaptchaReq.parse req.body).2 = true) :
    ∃ conn' m' p,
      (handlePdu l.server draw async c req s).1 =
        ((s.setConn c conn').record (.issued c draw.captcha)).sendPdu c p ∧
      conn'.prvKey = bytesToHexString (phraseKey l.hd m') ∧
      ∀ q, Delivered p q →
        q.body = Wire.encode (Message.fields
          (captchaRes l.secp l.hd m' draw.captcha draw.iv draw.aad)) ∧
        ∀ env : ClientEnv, TakenApart l env draw m' q ∧ Recovers l env q ∧
          ∀ (a : Account l.storage.Files) address manager,
            getAccountAddress (hdKeyEncoder l.hd) l.storage env.memory env.depth a.manager =
              some (address, manager) →
            (a.handlePdu l env q).2 =
              .ok (some (loginRequest l env manager address draw.captcha)) := by
  have hdrawn := drawn_of_genRandom hdraws hcaptcha hiv haad
  have hserver : ∃ conn' m' p, CarriesKeys l.secp l.hd conn' draw m' p ∧
      conn'.handle = conn.handle ∧ conn'.isOpen = conn.isOpen ∧
      (handlePdu (.ofHD l.proto l.secp l.hd) draw async c req s).1 =
        ((s.setConn c conn').record (.issued c draw.captcha)).sendPdu c p :=
    handlePdu_captcha_own hlaws hdrawn hlive hcid hparse
  obtain ⟨conn', m', p, hcarries, -, -, hsent⟩ := hserver
  refine ⟨conn', m', p, hsent, hcarries.prvKey, ?_⟩
  intro q hq
  obtain ⟨hcid', hbody⟩ := hcarries.wrote.delivered hq
  have hrev : ¬ q.getReversed = 1 := by
    rw [hcarries.reversed q hq]
    decide
  refine ⟨hbody, ?_⟩
  intro env
  have htaken : TakenApart l env draw m' q := takenApart hlaws hdrawn hbody
  refine ⟨htaken, htaken.recovers hlaws hdrawn, ?_⟩
  intro a address manager hget
  unfold Account.handlePdu
  rw [if_neg hrev]
  dsimp only
  rw [if_pos hcid', handleCaptcha_takenApart hlaws hdrawn htaken hget]

end

theorem captchaPdu_spec : sampleEnv.captcha = genRandom [36, 1, 11, 2, 38, 3] ∧
    captchaPdu.getCommandId = cidAuthCaptchaReq ∧
    (sessionClient.proto.authCaptchaReq.parse captchaPdu.body).2 = true := by
  decide +kernel

/-- The first captcha of a server. -/
theorem captchaRes_takenApart_sampleServer :
    ∃ p m', ∀ q, Delivered p q → TakenApart sessionClient sampleClientEnv sampleEnv m' q ∧
      Recovers sessionClient sampleClientEnv q := by
  obtain ⟨hcaptcha, hcid, hparse⟩ := captchaPdu_spec
  obtain ⟨conn', m', p, -, -, h⟩ := captchaRes_takenApart sessionClient sessionPoint
    keyLaws_session sampleEnv [36, 1, 11, 2, 38, 3] rfl hcaptcha rfl rfl false sampleServer 0
    { handle := 5 } ⟨rfl, rfl⟩ captchaPdu hcid hparse
  refine ⟨p, m', ?_⟩
  intro q hq
  obtain ⟨htaken, hrec, -⟩ := (h q hq).2 sampleClientEnv
  exact ⟨htaken, hrec⟩

end Net
end Proof
end PtpCore
