import PtpCore.Global.Helpers

/-!
# Signatures and shared keys (`ptp_crypto/secp256k1_helpers.cpp`)

A signature is 65 bytes, the last of which says which of four keys it belongs to. The curve
operations of libsecp256k1 and the hash are parameters; around them this is the code: the text
that is signed, the way the last byte is taken, and the address, the last twenty bytes of the hash
of a public key.
-/

namespace PtpCore
namespace Crypto

open Lib Global

/-- libsecp256k1 and Keccak-256. -/
structure Secp256k1 where
  PubKey : Type
  /-- `Keccak256::getHash`. -/
  keccak256 : Bytes → Bytes
  /-- `..._parse_compact` and `secp256k1_ecdsa_recover`: 64 bytes, a recovery id, a hash. -/
  recover : Bytes → Int → Bytes → Option PubKey
  /-- `secp256k1_ec_pubkey_serialize`, to 65 bytes and to 33. -/
  serializeUncompressed : PubKey → Bytes
  serializeCompressed : PubKey → Bytes
  /-- `secp256k1_ec_pubkey_parse`. -/
  parse : Bytes → Option PubKey
  /-- `secp256k1_ecdh` with a 32 byte private key. -/
  ecdh : PubKey → Bytes → Option Bytes
  /-- `secp256k1_ecdsa_sign_recoverable` of a hash: 64 bytes and the recovery id. -/
  sign : Bytes → Bytes → Bytes × UInt8

/-- `SignMsgType`. -/
inductive SignMsgType
  | eth
  | ptp
  | ptpGroup
  deriving DecidableEq, Repr

/-- `PTP_Signed_Message`, `PTP_GROUP_Signed_Message` and `ETH_Signed_Message`. -/
def SignMsgType.text : SignMsgType → String
  | .ptp => "PTP Signed Message:\n"
  | .ptpGroup => "PTP GROUP Signed Message:\n"
  | .eth => "Ethereum Signed Message:\n"

def formatSignMsgData (message : Bytes) (signMsgType : SignMsgType) : Bytes :=
  0x19 :: (signMsgType.text.toUTF8.toList ++ (decimal message.length ++ message))

section

variable (c : Secp256k1)

/-- `pub_key_to_address`: the hash of 64 bytes without its first twelve. -/
def pubKeyToAddress (pubkey64 : Bytes) : Bytes := (c.keccak256 pubkey64).drop 12

def addressToHex (address : Bytes) : Bytes := bytesToHexString address

/-- The recovery id as the source computes it from the last byte. -/
def recoveryId (recId : UInt8) : Int :=
  let v : Int := recId.toNat
  let v := if v < 27 then v + 27 else v
  if v > 3 then v - 27 else v

/-- `recover_pub_key_from_sig_65`, the form that returns a `bool`, and
    `recover_pub_key_and_address_from_sig`, which calls it: the compressed key and the address in
    hexadecimal. -/
def recoverPubKeyAndAddressFromSig (sig65 msgData : Bytes) : Option (Bytes × Bytes) :=
  match c.recover (sig65.take 64) (recoveryId (sig65.getD 64 0)) (c.keccak256 msgData) with
  | none => none
  | some rawPubkey =>
    let pubKey64 := (c.serializeUncompressed rawPubkey).drop 1
    some (c.serializeCompressed rawPubkey, addressToHex (pubKeyToAddress c pubKey64))

/-- `recover_pub_key_from_sig_64`: 64 bytes, or nothing when the library finds no key. -/
def recoverPubKeyFromSig64 (sig64 : Bytes) (recId : UInt8) (msgData : Bytes) : Bytes :=
  match c.recover sig64 (recoveryId recId) (c.keccak256 msgData) with
  | none => []
  | some rawPubkey => (c.serializeUncompressed rawPubkey).drop 1

/-- `ecdsa_sign_recoverable`. -/
def ecdsaSignRecoverable (msgData prvKey : Bytes) : Bytes :=
  let (sig64, recId) := c.sign (c.keccak256 msgData) prvKey
  sig64 ++ [recId]

/-- `ecdh_create_share_key` with the private key in hexadecimal; the outer `none` is what
    `hex_to_string` throws. -/
def ecdhCreateShareKey (pubKey : c.PubKey) (prvKey : Bytes) : Option (Option Bytes) :=
  (hexToString (prvKey.drop 2)).map fun prvKey32 => c.ecdh pubKey prvKey32

end

end Crypto
end PtpCore
