import PtpCore.Net.AccountKeys
import PtpCore.Proof.Crypto.Recovery

/-!
# Signatures without a key

When the library finds no key, `recover_pub_key_from_sig_64` answers the empty string, and its
callers take that for a key. The hash is over 64 bytes whatever the string is, so it is made of what
lies behind it, and the result looks like any other address.
-/

namespace PtpCore
namespace Proof
namespace Net

open Lib PtpCore.Crypto PtpCore.Net PtpCore.Net.AccountManager
open PtpCore.Proof.Crypto

section

variable (c : Secp256k1)

/-- What the library says to `verifyMessageRecoverAddress`. -/
def keyOfMessage (sig65 message : Bytes) : Option c.PubKey :=
  c.recover (sig65.take 64) (recoveryId (sig65.getD 64 0))
    (c.keccak256 (formatSignMsgData message .ptp))

/-- What it says to `recover_address_from_sig`, whose last byte is a `char`. -/
def keyOfSig (sig65 msg : Bytes) : Option c.PubKey :=
  c.recover (sig65.take 64) (idOf (sig65.getD 64 0).toInt8.toInt) (c.keccak256 msg)

/-- An address is 20 bytes. Neither function answers one, or the text of one, when there is no key,
    and `pub_key_to_address` stays in the string that it is given. -/
structure NoAddressWithoutKey (beyond sig65 message pubkey : Bytes) : Prop where
  verify : keyOfMessage c sig65 message = none → ∀ address : Bytes, address.length = 20 →
    verifyMessageRecoverAddress c beyond sig65 message ≠ addressToHex address
  fromSig : keyOfSig c sig65 message = none → ∀ address : Bytes, address.length = 20 →
    recoverAddressFromSig c beyond sig65 message ≠ address
  reads : ∀ i ∈ pubKeyToAddressReads, i < pubkey.length

variable {c} {beyond sig65 message : Bytes}

theorem length_pubKeyToAddressAt (hhash : ∀ data, (c.keccak256 data).length = 32)
    (beyond pubkey64 : Bytes) : (pubKeyToAddressAt c beyond pubkey64).length = 20 := by
  rw [pubKeyToAddressAt, pubKeyToAddress, List.length_drop, hhash]

theorem verifyMessageRecoverAddress_none (h : keyOfMessage c sig65 message = none) :
    verifyMessageRecoverAddress c beyond sig65 message =
      addressToHex (pubKeyToAddressAt c beyond []) := by
  unfold keyOfMessage at h
  rw [verifyMessageRecoverAddress, recoverPubKeyFromSig64, h]
  rfl

theorem recoverAddressFromSig_none (hlen : sig65.length = 65)
    (h : keyOfSig c sig65 message = none) :
    recoverAddressFromSig c beyond sig65 message = pubKeyToAddressAt c beyond [] := by
  unfold keyOfSig at h
  rw [recoverAddressFromSig, recoverPubKeyFromSig, if_neg (not_not.mpr hlen),
    recoverPubKeyFromSig64Int_eq, h]
  rfl

theorem pubKeyToAddressReads_iff (pubkey : Bytes) :
    (∀ i ∈ pubKeyToAddressReads, i < pubkey.length) ↔ 64 ≤ pubkey.length := by
  constructor
  · intro h
    have hlast := h 63 (List.mem_range.mpr (by decide))
    omega
  · intro h i hi
    exact Nat.lt_of_lt_of_le (List.mem_range.mp hi) h

/-- **When there is no address without a key**: when there is a key both times. -/
theorem noAddressWithoutKey_iff (hhash : ∀ data, (c.keccak256 data).length = 32)
    (hlen : sig65.length = 65) (pubkey : Bytes) :
    NoAddressWithoutKey c beyond sig65 message pubkey ↔
      keyOfMessage c sig65 message ≠ none ∧ keyOfSig c sig65 message ≠ none ∧
        64 ≤ pubkey.length := by
  constructor
  · rintro ⟨hverify, hsig, hreads⟩
    have h20 := length_pubKeyToAddressAt hhash beyond []
    refine ⟨?_, ?_, (pubKeyToAddressReads_iff pubkey).mp hreads⟩
    · intro hnone
      exact hverify hnone _ h20 (verifyMessageRecoverAddress_none hnone)
    · intro hnone
      exact hsig hnone _ h20 (recoverAddressFromSig_none hlen hnone)
  · rintro ⟨hverify, hsig, hreads⟩
    exact ⟨fun hnone => absurd hnone hverify, fun hnone => absurd hnone hsig,
      (pubKeyToAddressReads_iff pubkey).mpr hreads⟩

end

/-- A library that finds a key for everything but zeros, as no signature has `r = 0`. -/
def nonzeroCurve : Secp256k1 where
  PubKey := Bytes
  keccak256 data := toBE 32 (ofBE data)
  recover sig64 _ _ := if ofBE sig64 = 0 then none else some sig64
  serializeUncompressed key := 4 :: key
  serializeCompressed key := 2 :: key.take 32
  parse _ := none
  ecdh _ _ := none
  sign _ prvKey := (prvKey ++ prvKey, 0)

theorem length_keccak256_nonzeroCurve (data : Bytes) :
    (nonzeroCurve.keccak256 data).length = 32 := length_toBE 32 _

theorem noAddressWithoutKey_iff_ones :
    NoAddressWithoutKey nonzeroCurve [] (List.replicate 65 1) [] (List.replicate 64 1) ↔
      keyOfMessage nonzeroCurve (List.replicate 65 1) [] ≠ none ∧
        keyOfSig nonzeroCurve (List.replicate 65 1) [] ≠ none ∧
        64 ≤ (List.replicate 64 (1 : UInt8)).length :=
  noAddressWithoutKey_iff length_keccak256_nonzeroCurve (by simp) _

/-- A signature of zeros. The key that `pub_key_to_address` is given is empty. -/
theorem not_noAddressWithoutKey_zeros :
    keyOfMessage nonzeroCurve (List.replicate 65 0) "hi".toUTF8.toList = none ∧
      keyOfSig nonzeroCurve (List.replicate 65 0) "hi".toUTF8.toList = none ∧
      ¬ NoAddressWithoutKey nonzeroCurve (List.replicate 63 0) (List.replicate 65 0)
        "hi".toUTF8.toList [] := by
  have hverify : keyOfMessage nonzeroCurve (List.replicate 65 0) "hi".toUTF8.toList = none := by
    decide +kernel
  have hsig : keyOfSig nonzeroCurve (List.replicate 65 0) "hi".toUTF8.toList = none := by
    decide +kernel
  refine ⟨hverify, hsig, ?_⟩
  intro h
  exact h.verify hverify _ (length_pubKeyToAddressAt length_keccak256_nonzeroCurve _ [])
    (verifyMessageRecoverAddress_none hverify)

end Net
end Proof
end PtpCore
