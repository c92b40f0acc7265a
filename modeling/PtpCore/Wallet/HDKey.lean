import PtpCore.Crypto.Sha256
import PtpCore.Toolbox.Data

/-!
# Hierarchical keys (`ptp_wallet/HDKey.cpp`)

A key is made from a phrase in two steps, a root key from the seed and then one derivation for
each part of a path. There are two pairs of functions for this: `makeBip32RootKey` with
`makeExtendedKey`, and `makeEthRootKey` with `makeEthExtendedKey`. They differ in what they fill
in besides the private key: the first pair encodes the key as Bitcoin wallets do, the second does
not.

`PBKDF2`, `HMAC-SHA512`, the multiplication of the base point, Keccak and `base58` are parameters.
Both loops repeat a hash until it gives a number below the order of the curve; `attempts` bounds
how often, and no statement depends on it.
-/

namespace PtpCore
namespace Wallet

open Lib

structure HDPrimitives where
  /-- `MnemonicHelper::wordsToSeed`. -/
  wordsToSeed : Bytes → Bytes
  hmacSha512 : (key data : Bytes) → Bytes
  /-- The order of the curve. -/
  order : Nat
  attempts : Nat
  /-- `ecdsa_get_public_key33` and `ecdsa_get_public_key64` of a private key. -/
  publicKey33 : Bytes → Bytes
  publicKey64 : Bytes → Bytes
  keccak256 : Bytes → Bytes
  base58EncodeCheck : Bytes → Bytes

structure HDKey where
  publicKey : Bytes := List.replicate 33 0
  publicKey64 : Bytes := List.replicate 64 0
  privateKey : Bytes := List.replicate 32 0
  chainCode : Bytes := List.replicate 32 0
  extPrivateKey : Bytes := []
  extPublicKey : Bytes := []
  /-- `BTCNetwork::bip32`, of `MainNet`. -/
  bip32 : UInt32 × UInt32 := (0x0488b21e, 0x0488ade4)
  depth : UInt8 := 0
  index : UInt32 := 0
  fingerprint : UInt32 := 0
  deriving DecidableEq, Repr

/-- `curve->bip32_name` of secp256k1. -/
def bip32Name : Bytes := "Bitcoin seed".toUTF8.toList

/-- The indices of a path. `m` is skipped, and an apostrophe asks for a private derivation. -/
def pathIndices (path : String) : List UInt32 :=
  ((path.toUTF8.toList.splitOn 0x2f).filter fun bit => bit ≠ [0x6d] ∧ bit ≠ [0x27]).map fun bit =>
    let hardened := 1 < bit.length ∧ bit.getLast? = some 0x27
    let digits := if hardened then bit.dropLast else bit
    let index := UInt32.ofNat (digits.foldl (fun n x => n * 10 + (x.toNat - 0x30)) 0)
    if hardened then index + 0x80000000 else index

namespace HDKey

variable (p : HDPrimitives)

def fillPublicKey (key : HDKey) : HDKey := { key with publicKey := p.publicKey33 key.privateKey }

def fillPublicKey64 (key : HDKey) : HDKey :=
  { key with publicKey64 := p.publicKey64 key.privateKey }

/-- `fetchFingerprint`, which fills the public key in. -/
def fetchFingerprint (key : HDKey) : UInt32 × HDKey :=
  let key := key.fillPublicKey p
  (UInt32.ofNat (ofBE ((Crypto.sha256 key.publicKey).take 4)), key)

/-- Both loops: hash again until the result will do. -/
def retry (good : Bytes → Bool) (next : Bytes → Bytes) : Nat → Bytes → Bytes
  | 0, I => I
  | n + 1, I => if good I then I else retry good next n (next I)

/-- The private key of a child, from the hash and the key of the parent. -/
def childKey (I privateKey : Bytes) : Nat := (ofBE (I.take 32) + ofBE privateKey) % p.order

def derive (key : HDKey) (index : UInt32) : HDKey :=
  let (fingerprint, key) := key.fetchFingerprint p
  let buff := (if index &&& 0x80000000 ≠ 0 then 0 :: key.privateKey else key.publicKey) ++
    toBE 4 index.toNat
  let good (I : Bytes) : Bool := ofBE (I.take 32) < p.order ∧ childKey p I key.privateKey ≠ 0
  let next (I : Bytes) : Bytes := p.hmacSha512 key.chainCode (1 :: (I.drop 32 ++ toBE 4 index.toNat))
  let I := retry good next p.attempts (p.hmacSha512 key.chainCode buff)
  { key with
    privateKey := toBE 32 (childKey p I key.privateKey)
    chainCode := I.drop 32
    depth := key.depth + 1
    index := index
    fingerprint := fingerprint
    publicKey := [] }

def derivePath (key : HDKey) (path : String) : HDKey := (pathIndices path).foldl (derive p) key

/-- `serialize` of the private or of the public key. -/
def serialize (key : HDKey) (fingerprint version : UInt32) (publicKey : Bool) : HDKey :=
  let data := toBE 4 version.toNat ++ (key.depth :: (toBE 4 fingerprint.toNat ++
    (toBE 4 key.index.toNat ++ key.chainCode)))
  if publicKey then
    { key with extPublicKey := p.base58EncodeCheck (data ++ key.publicKey) }
  else { key with extPrivateKey := p.base58EncodeCheck (data ++ 0 :: key.privateKey) }

def fromSeed (seed : Bytes) : HDKey :=
  let good (I : Bytes) : Bool := ofBE (I.take 32) ≠ 0 ∧ ofBE (I.take 32) < p.order
  let I := retry good (p.hmacSha512 bip32Name) p.attempts (p.hmacSha512 bip32Name seed)
  { privateKey := I.take 32, chainCode := I.drop 32, publicKey := [] }

/-! ## The makers -/

def makeBip32RootKey (mnemonic : Bytes) : HDKey :=
  let out := fromSeed p (p.wordsToSeed mnemonic)
  let out := out.serialize p 0 out.bip32.2 false
  let out := out.fillPublicKey p
  out.serialize p 0 out.bip32.1 true

def makeExtendedKey (rootKey : HDKey) (path : String) : HDKey :=
  let key := rootKey.derivePath p path
  let key := key.serialize p key.fingerprint key.bip32.2 false
  let key := key.fillPublicKey p
  let key := key.serialize p key.fingerprint key.bip32.1 true
  key.fillPublicKey p

def makeEthRootKey (mnemonic : Bytes) : HDKey := fromSeed p (p.wordsToSeed mnemonic)

def makeEthExtendedKey (rootKey : HDKey) (path : String) : HDKey :=
  let key := rootKey.derivePath p path
  (key.fillPublicKey p).fillPublicKey64 p

/-- `ecdsa_get_public_address`: the hash of the public key without its first twelve bytes. -/
def ecdsaGetPublicAddress (privateKey : Bytes) : Bytes :=
  (p.keccak256 (p.publicKey64 privateKey)).drop 12

def getEthAddress (rootKey : HDKey) : Bytes :=
  Toolbox.bytesToHex (ecdsaGetPublicAddress p rootKey.privateKey)

end HDKey

end Wallet
end PtpCore
