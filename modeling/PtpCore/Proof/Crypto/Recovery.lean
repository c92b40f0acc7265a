import PtpCore.Crypto.Recovery
import Mathlib.Tactic.SplitIfs

/-!
# The three ways to recover a key

They agree on the bytes and the hash, and on the recovery id as long as the last byte of the
signature is below 128 (`recoveredBy_iff`). From there on the form that takes a string sees a
negative number. A last byte of `0xe5` is the id 0 to it, and an impossible id to the others.
-/

namespace PtpCore
namespace Proof
namespace Crypto

open Lib PtpCore.Crypto

/-- The id that is made of a number. -/
def idOf (recId : Int) : Int :=
  let v := if recId < 27 then recId + 27 else recId
  if v > 3 then v - 27 else v

theorem recoveryId_eq (recId : UInt8) : recoveryId recId = idOf recId.toNat := rfl

theorem toInt_of_lt {x : UInt8} (h : x.toNat < 128) : x.toInt8.toInt = x.toNat := by
  have hint : x.toInt8.toInt = x.toBitVec.toInt := rfl
  have hnat : x.toBitVec.toNat = x.toNat := rfl
  rw [hint, BitVec.toInt_eq_toNat_cond, hnat, if_pos (by omega)]

theorem toInt_of_le {x : UInt8} (h : 128 ≤ x.toNat) : x.toInt8.toInt = x.toNat - 256 := by
  have hint : x.toInt8.toInt = x.toBitVec.toInt := rfl
  have hnat : x.toBitVec.toNat = x.toNat := rfl
  rw [hint, BitVec.toInt_eq_toNat_cond, hnat, if_neg (by omega)]
  rfl

/-- Numbers from -24 to 26 are ids as they are. -/
theorem idOf_eq (n : Int) :
    idOf n = if n < 27 then if n + 27 > 3 then n else n + 27 else n - 27 := by
  unfold idOf
  dsimp only
  split_ifs <;> omega

theorem idOf_bounds {n : Int} (hlo : -128 ≤ n) (hhi : n < 256) : -128 ≤ idOf n ∧ idOf n < 256 := by
  rw [idOf_eq]
  split_ifs <;> omega

theorem idOf_ne {x : UInt8} (h : 128 ≤ x.toNat) : idOf (x.toNat - 256) ≠ idOf x.toNat := by
  have hlt : x.toNat < 256 := x.toNat_lt
  rw [idOf_eq, idOf_eq]
  split_ifs <;> omega

/-- What is made of a key that the library found. -/
def pubKey64 (c : Secp256k1) (found : Option c.PubKey) : Bytes :=
  match found with
  | none => []
  | some rawPubkey => (c.serializeUncompressed rawPubkey).drop 1

/-- All three pass these bytes and this id on, and make their results of the same key. -/
structure RecoveredBy (sig : Bytes) (sig64 : Bytes) (id : Int) : Prop where
  string : ∀ c msgData, recoverPubKeyFromSig c sig msgData =
    pubKey64 c (c.recover sig64 id (c.keccak256 msgData))
  array : ∀ c msgData, recoverPubKeyFromSig65 c sig msgData =
    pubKey64 c (c.recover sig64 id (c.keccak256 msgData))
  bool : ∀ c msgData, recoverPubKeyAndAddressFromSig c sig msgData =
    (c.recover sig64 id (c.keccak256 msgData)).map fun rawPubkey =>
      (c.serializeCompressed rawPubkey,
        addressToHex (pubKeyToAddress c (pubKey64 c (some rawPubkey))))

theorem recoverPubKeyFromSig64Int_eq (c : Secp256k1) (sig64 : Bytes) (recId : Int)
    (msgData : Bytes) : recoverPubKeyFromSig64Int c sig64 recId msgData =
      pubKey64 c (c.recover sig64 (idOf recId) (c.keccak256 msgData)) := rfl

/-- A library whose keys are the ids. -/
def idCurve : Secp256k1 where
  PubKey := Int
  keccak256 data := data
  recover _ id _ := some id
  serializeUncompressed id := 4 :: toBE 4 (id + 1000).toNat
  serializeCompressed id := toBE 4 (id + 1000).toNat
  parse _ := none
  ecdh _ _ := none
  sign _ prvKey := (prvKey, 0)

theorem not_recoveredBy {sig : Bytes} (hlen : sig.length = 65) (h : 128 ≤ (sig.getD 64 0).toNat)
    (sig64 : Bytes) (id : Int) : ¬ RecoveredBy sig sig64 id := by
  intro hall
  have heq := (hall.string idCurve []).trans (hall.array idCurve []).symm
  rw [recoverPubKeyFromSig, if_neg (not_not.mpr hlen), recoverPubKeyFromSig65,
    recoverPubKeyFromSig64Int_eq, recoverPubKeyFromSig64Int_eq] at heq
  have hnum := congrArg ofBE heq
  have hne := idOf_ne h
  have hlt : (sig.getD 64 0).toNat < 256 := (sig.getD 64 0).toNat_lt
  rw [toInt_of_le h] at hnum
  have hs := idOf_bounds (n := (sig.getD 64 0).toNat - 256) (by omega) (by omega)
  have hu := idOf_bounds (n := (sig.getD 64 0).toNat) (by omega) (by omega)
  change ofBE (toBE 4 (idOf ((sig.getD 64 0).toNat - 256) + 1000).toNat) =
    ofBE (toBE 4 (idOf (sig.getD 64 0).toNat + 1000).toNat) at hnum
  rw [ofBE_toBE_of_lt (by omega), ofBE_toBE_of_lt (by omega)] at hnum
  omega

/-- **When the three agree.** -/
theorem recoveredBy_iff {sig : Bytes} (hlen : sig.length = 65) :
    (∃ sig64 id, RecoveredBy sig sig64 id) ↔ (sig.getD 64 0).toNat < 128 := by
  constructor
  · rintro ⟨sig64, id, hall⟩
    by_contra hbig
    exact not_recoveredBy hlen (Nat.not_lt.mp hbig) sig64 id hall
  · intro hsmall
    refine ⟨sig.take 64, recoveryId (sig.getD 64 0), ?_, ?_, ?_⟩
    · intro c msgData
      rw [recoverPubKeyFromSig, if_neg (not_not.mpr hlen), recoverPubKeyFromSig64Int_eq,
        toInt_of_lt hsmall, recoveryId_eq]
    · intro c msgData
      rw [recoverPubKeyFromSig65, recoverPubKeyFromSig64Int_eq, recoveryId_eq]
    · intro c msgData
      rw [recoverPubKeyAndAddressFromSig]
      cases c.recover (sig.take 64) (recoveryId (sig.getD 64 0)) (c.keccak256 msgData) with
      | none => rfl
      | some rawPubkey => rfl

theorem recoveredBy_iff_zeros :
    (∃ sig64 id, RecoveredBy (List.replicate 65 0) sig64 id) ↔
      ((List.replicate 65 (0 : UInt8)).getD 64 0).toNat < 128 :=
  recoveredBy_iff (by decide)

/-- A signature that ends in `0xe5`. -/
theorem not_recoveredBy_e5 :
    ¬ ∃ sig64 id, RecoveredBy (List.replicate 64 0 ++ [0xe5]) sig64 id := by
  rintro ⟨sig64, id, hall⟩
  exact not_recoveredBy (by decide) (by decide) sig64 id hall

end Crypto
end Proof
end PtpCore
