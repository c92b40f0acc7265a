import PtpCore.Crypto.Secp256k1

/-!
# Recovering a key, three times (`ptp_crypto/secp256k1_helpers.cpp`)

`recover_pub_key_from_sig_64` takes the recovery id as an `int`. It is called with the last byte of
a signature: of an array of `unsigned char`, or of a `std::string`, whose elements are `char` and
signed. The form that returns a `bool` is in `Secp256k1.lean`.
-/

namespace PtpCore
namespace Crypto

open Lib

section

variable (c : Secp256k1)

/-- `recover_pub_key_from_sig_64`, of any `int`. -/
def recoverPubKeyFromSig64Int (sig64 : Bytes) (recId : Int) (msgData : Bytes) : Bytes :=
  let v := recId
  let v := if v < 27 then v + 27 else v
  let v := if v > 3 then v - 27 else v
  match c.recover sig64 v (c.keccak256 msgData) with
  | none => []
  | some rawPubkey => (c.serializeUncompressed rawPubkey).drop 1

/-- `recover_pub_key_from_sig_65`, the form that returns a string. -/
def recoverPubKeyFromSig65 (sig65 msgData : Bytes) : Bytes :=
  recoverPubKeyFromSig64Int c (sig65.take 64) (sig65.getD 64 0).toNat msgData

/-- `recover_pub_key_from_sig`, of a `std::string`. -/
def recoverPubKeyFromSig (sig msgData : Bytes) : Bytes :=
  if sig.length ≠ 65 then []
  else recoverPubKeyFromSig64Int c (sig.take 64) (sig.getD 64 0).toInt8.toInt msgData

/-- What `pub_key_to_address` tells `getHash` about the length of its string, whatever that is. -/
def pubKeyHashLen : Nat := 64

/-- The positions of the string that are read. -/
def pubKeyToAddressReads : List Nat := List.range pubKeyHashLen

/-- `pub_key_to_address` on any string. Behind the string is its zero, and behind that `beyond`. -/
def pubKeyToAddressAt (beyond pubkey64 : Bytes) : Bytes :=
  pubKeyToAddress c ((pubkey64 ++ 0 :: beyond).take pubKeyHashLen)

def recoverAddressFromSig (beyond sig msg : Bytes) : Bytes :=
  pubKeyToAddressAt c beyond (recoverPubKeyFromSig c sig msg)

end

end Crypto
end PtpCore
