import PtpCore.Crypto.AesGcm
import PtpCore.Global.Helpers

/-!
# What AES-GCM accepts

Each direction is a row of calls that must succeed, so each has one exact statement of when it
returns and with what (`aesGcmEncrypt_eq_ok_iff`, `aesGcmDecrypt_eq_ok_iff`). Read off these: the
tag has no part in whether decryption returns, and what was encrypted is decrypted again whenever
it fits the frame.
-/

namespace PtpCore
namespace Proof
namespace Crypto

open Lib PtpCore.Crypto PtpCore.Global

variable {gcm : Gcm} {ok ok' : EvpCall → Bool} {behindTag : Nat} {key iv aad : Bytes}

/-! ## The two functions -/

theorem evpCall_bind_eq_ok_iff {α : Type} {c : EvpCall} {f : Unit → Except GcmStop α} {a : α} :
    (evpCall ok c >>= f) = .ok a ↔ ok c = true ∧ f () = .ok a := by
  unfold evpCall
  cases ok c with
  | false => exact ⟨fun h => (by cases h), fun h => absurd h.1 Bool.false_ne_true⟩
  | true => exact ⟨fun h => ⟨rfl, h⟩, And.right⟩

theorem feedAad_bind_eq_ok_iff {α : Type} {n : Nat} {f : Bytes → Except GcmStop α} {a : α} :
    (feedAad ok n (some aad) >>= f) = .ok a ↔ ok .updateAad = true ∧ f (aad.take n) = .ok a := by
  rw [feedAad, bind_assoc, evpCall_bind_eq_ok_iff]
  rfl

/-- A test that throws, in front of the rest of a function. -/
theorem throw_bind_eq_ok_iff {α : Type} {p : Prop} [Decidable p] {e : GcmStop}
    {f : PUnit → Except GcmStop α} {x : Except GcmStop α} {a : α} :
    (if p then throw e >>= f else x) = .ok a ↔ ¬ p ∧ x = .ok a := by
  by_cases hp : p
  · rw [if_pos hp]
    exact ⟨fun h => (by cases h), fun h => absurd hp h.1⟩
  · rw [if_neg hp]
    exact ⟨fun h => ⟨hp, h⟩, And.right⟩

/-- The calls that encryption makes succeed. -/
structure EncryptReady (ok : EvpCall → Bool) : Prop where
  ctxNew : ok .ctxNew = true
  initCipher : ok .initCipher = true
  setIvLen : ok .setIvLen = true
  initKey : ok .initKey = true
  updateAad : ok .updateAad = true
  update : ok .update = true
  getTag : ok .getTag = true
  encryptFinal : ok .encryptFinal = true

/-- The calls that decryption makes before the last one succeed. -/
structure DecryptReady (ok : EvpCall → Bool) : Prop where
  ctxNew : ok .ctxNew = true
  initCipher : ok .initCipher = true
  setIvLen : ok .setIvLen = true
  initKey : ok .initKey = true
  setTag : ok .setTag = true
  updateAad : ok .updateAad = true
  update : ok .update = true

theorem aesGcmEncrypt_eq_ok_iff {plaintext ciphertext : Bytes} :
    aesGcmEncrypt gcm behindTag ok plaintext key iv (some aad) = .ok ciphertext ↔
      EncryptReady ok ∧ plaintext.length ≤ outBufLen ∧ plaintext.length ≤ behindTag ∧
        ciphertext = gcm.tag key iv (aad.take 16) (gcm.ctr key iv plaintext) ++
          gcm.ctr key iv plaintext := by
  simp only [aesGcmEncrypt, evpCall_bind_eq_ok_iff, feedAad_bind_eq_ok_iff, throw_bind_eq_ok_iff,
    gcm.length_ctr, Nat.not_lt]
  constructor
  · rintro ⟨h1, h2, h3, h4, h5, h6, hout, h7, h8, htag, h⟩
    cases h
    exact ⟨⟨h1, h2, h3, h4, h5, h6, h7, h8⟩, hout, htag, rfl⟩
  · rintro ⟨⟨h1, h2, h3, h4, h5, h6, h7, h8⟩, hout, htag, rfl⟩
    exact ⟨h1, h2, h3, h4, h5, h6, hout, h7, h8, htag, rfl⟩

/-- The tag is computed and compared, and what comes of it is at least 0. -/
theorem aesGcmDecrypt_eq_ok_iff {ciphertext plaintext : Bytes} :
    aesGcmDecrypt gcm ok ciphertext key iv (some aad) = .ok plaintext ↔
      DecryptReady ok ∧ 16 ≤ ciphertext.length ∧
        plaintext = gcm.ctr key iv (ciphertext.drop 16) := by
  have hret : (if gcm.tag key iv (aad.take sizeofPointer) (ciphertext.drop 16) =
      ciphertext.take 16 then 1 else 0 : Int) ≥ 0 := by
    split
    · exact Int.one_nonneg
    · exact Int.le_refl 0
  simp only [aesGcmDecrypt, evpCall_bind_eq_ok_iff, feedAad_bind_eq_ok_iff, throw_bind_eq_ok_iff,
    if_pos hret, Nat.not_lt]
  constructor
  · rintro ⟨h1, h2, h3, h4, h5, h6, hlen, h7, h⟩
    cases h
    exact ⟨⟨h1, h2, h3, h4, h5, h6, h7⟩, hlen, rfl⟩
  · rintro ⟨⟨h1, h2, h3, h4, h5, h6, h7⟩, hlen, rfl⟩
    exact ⟨h1, h2, h3, h4, h5, h6, hlen, h7, rfl⟩

/-! ## Authenticity and round trip -/

/-- Encryption returns a ciphertext, and decryption of it the plaintext. -/
def RoundTrips (gcm : Gcm) (behindTag : Nat) (ok ok' : EvpCall → Bool)
    (key iv aad plaintext : Bytes) : Prop :=
  ∃ ciphertext, aesGcmEncrypt gcm behindTag ok plaintext key iv (some aad) = .ok ciphertext ∧
    aesGcmDecrypt gcm ok' ciphertext key iv (some aad) = .ok plaintext

theorem roundTrips_iff {plaintext : Bytes} :
    RoundTrips gcm behindTag ok ok' key iv aad plaintext ↔
      EncryptReady ok ∧ DecryptReady ok' ∧ plaintext.length ≤ outBufLen ∧
        plaintext.length ≤ behindTag := by
  have hlen (text : Bytes) : (gcm.tag key iv (aad.take 16) text).length = 16 := gcm.length_tag ..
  constructor
  · rintro ⟨ciphertext, henc, hdec⟩
    obtain ⟨hready, hout, htag, -⟩ := aesGcmEncrypt_eq_ok_iff.mp henc
    exact ⟨hready, (aesGcmDecrypt_eq_ok_iff.mp hdec).1, hout, htag⟩
  · rintro ⟨hready, hready', hout, htag⟩
    refine ⟨_, aesGcmEncrypt_eq_ok_iff.mpr ⟨hready, hout, htag, rfl⟩,
      aesGcmDecrypt_eq_ok_iff.mpr ⟨hready', ?_, ?_⟩⟩
    · rw [List.length_append, hlen]
      exact Nat.le_add_right 16 _
    · rw [List.drop_left' (hlen _), gcm.ctr_ctr]

def hexText (text : String) : Bytes := (hexToString text.toUTF8.toList).getD []

def sampleKey : Bytes := hexText "e054f683521261beb71b95d6394eaeb9895291584aaa6e63e4b239a912fe4978"

/-- The key stream as far as 16 bytes go, and the tags under 16 and under 8 bytes of associated
    data. -/
def sampleGcm : Gcm where
  ctr _ _ text :=
    List.zipWith (· ^^^ ·) text
      (hexText "58b1bad9c7253ba95bd464fafdcf2977" ++ List.replicate text.length 0)
  tag _ _ aad _ :=
    if aad.length = 16 then hexText "8b75aca97fcf43a66e3a02f5794560b8"
    else hexText "c5654351ce620355387f51f7eebaebad"
  length_ctr _ _ text := by
    rw [List.length_zipWith, List.length_append, List.length_replicate]
    exact Nat.min_eq_left (Nat.le_add_left _ _)
  ctr_ctr _ _ text := by
    apply List.ext_getElem
    · simp
    · intro i h₁ h₂
      simp [UInt8.xor_assoc]
  length_tag _ _ aad _ := by
    split
    · decide +kernel
    · decide +kernel

end Crypto
end Proof
end PtpCore
