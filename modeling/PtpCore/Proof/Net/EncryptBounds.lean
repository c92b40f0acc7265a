import PtpCore.Proof.Global.Helpers
import PtpCore.Proof.Net.Channel

/-!
# Where encryption writes

Every call of `aes_gcm_encrypt` that gets to its end has copied the ciphertext to `tag + 16`, behind
the sixteen bytes of `tag`, and before that a text of more than 1024000 bytes has been written over
the end of `outBuf`. The arrays are kept only by the calls that fail early enough.
-/

namespace PtpCore
namespace Proof
namespace Net

open Lib PtpCore.Crypto PtpCore.Global PtpCore.Net
open PtpCore.Proof.Crypto PtpCore.Proof.Global

/-! ## The stores of one call -/

section

variable {α : Type} {ok : EvpCall → Bool} {stores : List GcmStore}

theorem run_evpCall_bind (c : EvpCall) (f : Unit → Storing α) :
    ((liftM (evpCall ok c) : Storing Unit) >>= f).run.run stores =
      if ok c then (f ()).run.run stores else (.error .failed, stores) := by
  rw [evpCall]
  cases ok c with
  | false => rfl
  | true => rfl

theorem run_feedAad_bind (n : Nat) (aad : Bytes) (f : Bytes → Storing α) :
    ((liftM (feedAad ok n (some aad)) : Storing Bytes) >>= f).run.run stores =
      if ok .updateAad then (f (aad.take n)).run.run stores else (.error .failed, stores) := by
  rw [feedAad, evpCall]
  cases ok .updateAad with
  | false => rfl
  | true => rfl

theorem run_throw_bind (p : Prop) [Decidable p] (e : GcmStop) (f : PUnit → Storing α)
    (x : Storing α) :
    (if p then throw e >>= f else x).run.run stores =
      if p then (.error e, stores) else x.run.run stores := by
  split
  · rfl
  · rfl

theorem run_storeTo_bind (array : GcmArray) (offset count : Nat) (f : Unit → Storing α) :
    (storeTo array offset count >>= f).run.run stores =
      (f ()).run.run (stores ++ [⟨array, offset, count⟩]) := rfl

end

section

variable {gcm : Gcm} {ok : EvpCall → Bool} {plaintext key iv aad : Bytes} {n : Int}

/-- The calls up to the one that encrypts succeed. -/
structure UpdateReady (ok : EvpCall → Bool) : Prop where
  ctxNew : ok .ctxNew = true
  initCipher : ok .initCipher = true
  setIvLen : ok .setIvLen = true
  initKey : ok .initKey = true
  updateAad : ok .updateAad = true
  update : ok .update = true

/-- What a call leaves once it has encrypted. -/
def afterUpdate (gcm : Gcm) (ok : EvpCall → Bool) (text key iv aad : Bytes) (len : Nat) :
    Except GcmStop Bytes × List GcmStore :=
  if ok .getTag then
    if ok .encryptFinal then
      (.ok (gcm.tag key iv (aad.take 16) (gcm.ctr key iv text) ++ gcm.ctr key iv text),
        [⟨.outBuf, 0, len⟩, ⟨.tag, 0, 16⟩, ⟨.tag, 16, len⟩, ⟨.ciphertext, 0, len + 16⟩])
    else (.error .failed, [⟨.outBuf, 0, len⟩, ⟨.tag, 0, 16⟩])
  else (.error .failed, [⟨.outBuf, 0, len⟩])

theorem run_ready (h : UpdateReady ok) (hn : 0 ≤ n) :
    (aesGcmEncryptStores gcm ok plaintext n key iv (some aad)).run.run [] =
      afterUpdate gcm ok (plaintext.take n.toNat) key iv aad n.toNat := by
  simp only [aesGcmEncryptStores, run_evpCall_bind, run_feedAad_bind, run_storeTo_bind,
    h.ctxNew, h.initCipher, h.setIvLen, h.initKey, h.updateAad, h.update,
    if_true, if_neg (Int.not_lt.mpr hn)]
  rfl

theorem run_not_ready (h : ¬ (UpdateReady ok ∧ 0 ≤ n)) :
    (aesGcmEncryptStores gcm ok plaintext n key iv (some aad)).run.run [] =
      (.error .failed, []) := by
  simp only [aesGcmEncryptStores, run_evpCall_bind, run_feedAad_bind, run_throw_bind]
  split_ifs with h1 h2 h3 h4 h5 hn h6
  · rfl
  · exact absurd ⟨⟨h1, h2, h3, h4, h5, h6⟩, Int.not_lt.mp hn⟩ h
  all_goals rfl

section

variable {text : Bytes} {len : Nat}

end

end

/-! ## Bodies of PDUs -/

section

variable (gcm : Gcm) (env : ClientEnv) (keys : ChannelKeys) (pdu : CImPdu)

/-- The length that both senders pass, an `int`. -/
def bodyLengthInt : Int := (UInt32.ofNat pdu.getBodyLength).toInt32.toInt

/-- How both of them call `aes_gcm_encrypt`. -/
def encryptBody : Except GcmStop Bytes × List GcmStore :=
  (aesGcmEncryptStores gcm env.evp pdu.getBodyData (bodyLengthInt pdu) keys.key keys.iv
    (some keys.aad)).run.run []

variable {pdu}

theorem bodyLengthInt_eq (h : pdu.getBodyLength < 2 ^ 31) :
    bodyLengthInt pdu = pdu.getBodyLength := by
  rw [bodyLengthInt, toInt_toInt32 (Nat.lt_trans h (by decide)), if_pos h]

theorem bodyLengthInt_neg (h : ¬ pdu.getBodyLength < 2 ^ 31) : bodyLengthInt pdu < 0 := by
  have hlt : pdu.getBodyLength < 2 ^ 32 := Nat.mod_lt _ (by decide)
  rw [bodyLengthInt, toInt_toInt32 hlt, if_neg h]
  omega

variable (pdu)

theorem encryptBody_ready (h : UpdateReady env.evp) (hlen : pdu.getBodyLength < 2 ^ 31) :
    encryptBody gcm env keys pdu =
      afterUpdate gcm env.evp pdu.body keys.key keys.iv keys.aad pdu.getBodyLength := by
  have hint := bodyLengthInt_eq hlen
  rw [encryptBody, run_ready h (by omega), hint, Int.toNat_natCast, CImPdu.body]

theorem encryptBody_not_ready (h : ¬ (UpdateReady env.evp ∧ pdu.getBodyLength < 2 ^ 31)) :
    encryptBody gcm env keys pdu = (.error .failed, []) := by
  rw [encryptBody, run_not_ready]
  rintro ⟨hready, hn⟩
  exact h ⟨hready, by
    by_contra hlen
    exact absurd hn (Int.not_le.mpr (bodyLengthInt_neg hlen))⟩

/-- The function as the senders are modelled with it: it returns where this one does, if the frame
    has room for what is written. -/
theorem aesGcmEncrypt_eq_ok_iff_encryptBody (hlen : pdu.body.length < 2 ^ 31)
    (hbody : pdu.body.length = pdu.getBodyLength) {out : Bytes} :
    aesGcmEncrypt gcm env.behindTag env.evp pdu.body keys.key keys.iv (some keys.aad) = .ok out ↔
      (encryptBody gcm env keys pdu).1 = .ok out ∧ pdu.body.length ≤ outBufLen ∧
        pdu.body.length ≤ env.behindTag := by
  rw [aesGcmEncrypt_eq_ok_iff]
  constructor
  · rintro ⟨hready, hout, hbehind, rfl⟩
    refine ⟨?_, hout, hbehind⟩
    rw [encryptBody_ready gcm env keys pdu ⟨hready.ctxNew, hready.initCipher, hready.setIvLen,
      hready.initKey, hready.updateAad, hready.update⟩ (hbody ▸ hlen), afterUpdate,
      if_pos hready.getTag, if_pos hready.encryptFinal]
  · rintro ⟨hrun, hout, hbehind⟩
    by_cases hready : UpdateReady env.evp
    · rw [encryptBody_ready gcm env keys pdu hready (hbody ▸ hlen), afterUpdate] at hrun
      split_ifs at hrun with htag hfinal
      · cases hrun
        exact ⟨⟨hready.ctxNew, hready.initCipher, hready.setIvLen, hready.initKey,
          hready.updateAad, hready.update, htag, hfinal⟩, hout, hbehind, rfl⟩
    · rw [encryptBody_not_ready gcm env keys pdu fun h => hready h.1] at hrun
      cases hrun

end

end Net
end Proof
end PtpCore
